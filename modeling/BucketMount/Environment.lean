import BucketMount.Text.Utf8

/-!
# The environment of a process

Named values, both any bytes. A name that is empty or holds an equals sign or a zero byte cannot be set, and a value
with a zero byte cannot be stored (`Environment.Settable`).
-/

namespace BucketMount

abbrev Environment := List (Bytes × Bytes)

namespace Environment

def nul : UInt8 := 0

def equalsSign : UInt8 := 0x3D

def get? (env : Environment) (name : Bytes) : Option Bytes := env.lookup name

/-- Whether the system can keep this value under this name. -/
def Settable (name value : Bytes) : Prop :=
  name ≠ [] ∧ equalsSign ∉ name ∧ nul ∉ name ∧ nul ∉ value

instance (name value : Bytes) : Decidable (Settable name value) := by
  unfold Settable
  infer_instance

/-- The environment with a variable set; a variable that is set already keeps its place. -/
def set (env : Environment) (name value : Bytes) : Environment :=
  if (env.lookup name).isSome then env.map fun (n, v) => if n = name then (n, value) else (n, v)
  else env ++ [(name, value)]

def erase (env : Environment) (name : Bytes) : Environment := env.filter (·.1 ≠ name)

/-- The entries as a program receives them: name, equals sign, value. -/
def entries (env : Environment) : List Bytes := env.map fun (n, v) => n ++ equalsSign :: v

end Environment
end BucketMount
