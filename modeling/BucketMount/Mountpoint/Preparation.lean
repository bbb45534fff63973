import BucketMount.Kernel

/-!
# Preparing a mount path

A path that does not exist is created. One that exists has to be an empty directory of the job user, who can write to
it. This runs in the worker after it has become the job user, so the answers are those the job would get.
-/

namespace BucketMount

def permissionBits (mode : Nat) : Nat := mode % 0o10000

namespace Files

/-- Checks a mount directory, or creates one that is missing. -/
def prepare {ω : Type} (files : Files ω) (caller : Credentials) (path : Bytes) (uid mode : Nat) :
    StateM ω (Except Report Unit) := do
  let refuse (v : PathViolation) : Except Report Unit := .error ⟨.violation v, .unknown⟩
  match ← files.stat caller path with
  | .error .enoent => return (← files.makeDir caller path (permissionBits mode)).mapError (⟨.createDir, ·⟩)
  | .error e => return .error ⟨.inspectPath, e⟩
  | .ok info =>
    if ¬info.isDirectory then return refuse .notDirectory
    if info.owner ≠ uid then return refuse .wrongOwner
    match ← files.hasEntries caller path with
    | .error e => return .error ⟨.inspectPath, e⟩
    | .ok true => return refuse .notEmpty
    | .ok false => return if ← files.canWrite caller path then .ok () else refuse .notWritable

end Files
end BucketMount
