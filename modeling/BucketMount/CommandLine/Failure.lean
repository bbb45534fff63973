import BucketMount.Error

/-!
# Failures as the command line shows them

A failure is shown with what was being done and with its causes, each on lines of its own. Lines within a cause stay
indented; causes are numbered if there are several.
-/

namespace BucketMount

/-- What lies behind an error, its own message first. -/
def MountError.chain : MountError → List Text
  | .io cause => [(MountError.io cause).message, cause.message]
  | e => [e.message]

namespace CommandLine

/-- A text with every line after the first one indented. -/
def hang (indent : Text) (t : Text) : Text := (['\n'] ++ indent).intercalate (t.splitOn '\n')

/-- The number of a cause, set to the right. -/
def causeNumber (n : Nat) : Text :=
  let digits := Text.decimal n
  List.replicate (5 - digits.length) ' ' ++ digits ++ ": ".toList

def causeLines : List Text → Text
  | [] => []
  | [cause] => '\n' :: "    ".toList ++ hang "    ".toList cause
  | causes =>
    (causes.zipIdx.map fun (cause, n) => '\n' :: causeNumber n ++ hang "       ".toList cause).flatten

def showChain : List Text → Text
  | [] => []
  | [message] => "Error: ".toList ++ message ++ ['\n']
  | message :: causes => "Error: ".toList ++ message ++ "\n\nCaused by:".toList ++ causeLines causes ++ ['\n']

end CommandLine
end BucketMount
