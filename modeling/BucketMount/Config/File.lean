import BucketMount.Config.Setting
import BucketMount.Json.Reader

/-!
# The configuration file

A configuration is the standard one with the settings of a file, provided they make sense. The file is named by an
environment variable; without it the standard configuration holds.
-/

namespace BucketMount.Config

def pathVar : Text := "BUCKETMOUNT_CONFIG".toList

/-- The configuration that a text describes; `path` is what the text is called in errors. -/
def ofText (path t : Text) : Except MountError Config :=
  match (Json.read? t).bind ofJson? with
  | none => .error (.config (.unparsable path))
  | some c => c.validate

def ofFile (path : Bytes) (content : Except FileFault Bytes) : Except MountError Config :=
  let shown := Text.ofUtf8Lossy path
  match content with
  | .error fault => .error (.config (.unreadable shown fault))
  | .ok bytes =>
    match Text.ofUtf8? bytes with
    | none => .error (.config (.unreadable shown .notText))
    | some t => ofText shown t

/-- The configuration that the environment asks for: `named` is the value of the variable, `read` reads a file. -/
def ofEnvironment {m : Type → Type} [Monad m] (named : Option Bytes) (read : Bytes → m (Except FileFault Bytes)) :
    m (Except MountError Config) := do
  match named with
  | none | some [] => return .ok standard
  | some path => return ofFile path (← read path)

end BucketMount.Config
