import BucketMount.Text.Basic

/-!
# Why a mount path is refused

A path that exists must be an empty directory of the job user, who can write to it. `PathViolation` names the first of
these that does not hold.
-/

namespace BucketMount

/-- Why an existing mount path is refused before the helper runs. -/
inductive PathViolation where
  | notDirectory
  | wrongOwner
  | notEmpty
  | notWritable
deriving DecidableEq, Repr

namespace PathViolation

/-- The end of the sentence that starts with the path. -/
def message : PathViolation → Text
  | notDirectory => "exists and is not a directory".toList
  | wrongOwner => "is not owned by the job user".toList
  | notEmpty => "is not empty".toList
  | notWritable => "is not writable by the job user".toList

def name : PathViolation → Text
  | notDirectory => "NotDirectory".toList
  | wrongOwner => "WrongOwner".toList
  | notEmpty => "NotEmpty".toList
  | notWritable => "NotWritable".toList

end PathViolation
end BucketMount
