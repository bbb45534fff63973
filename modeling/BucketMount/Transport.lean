import BucketMount.Config.Basic
import BucketMount.Environment
import BucketMount.Error

/-!
# Where the captured list is kept

The text of the list lives between the submitting side and the node in a slot of bounded size: in memory, or in a
variable of the environment. Storing can break off altogether, where the system cannot keep a variable.
-/

namespace BucketMount

inductive Failure where
  /-- It was refused. -/
  | refused (error : MountError)
  /-- The program was broken off. -/
  | aborted
deriving DecidableEq, Repr

/-- A bounded slot for text, on a state `τ`. -/
structure Transport (τ : Type) where
  /-- The text, or nothing if there has been none yet. -/
  load : τ → Except MountError (Option Text)
  store : Text → StateM τ (Except Failure Unit)
  /-- The buffer of the reader, with the closing zero. -/
  capacity : τ → Nat

structure Slot where
  value : Option Text
  capacity : Nat
deriving DecidableEq, Repr

namespace Transport

def memory : Transport Slot where
  load s := .ok s.value
  store t := do
    modify fun s => { s with value := some t }
    return .ok ()
  capacity := Slot.capacity

def environment (name : Text) (capacity : Nat) : Transport Environment where
  load env :=
    match env.get? (Text.toUtf8 name) with
    | none => .ok none
    | some bytes =>
      match Text.ofUtf8? bytes with
      | some t => .ok (some t)
      | none => .error (.config (.variableNotText name))
  store t := do
    if Environment.Settable (Text.toUtf8 name) (Text.toUtf8 t) then
      modify fun env => Environment.set env (Text.toUtf8 name) (Text.toUtf8 t)
      return .ok ()
    else return .error .aborted
  capacity _ := capacity

def ofConfig (c : Config) : Transport Environment := environment c.transportVar c.transportCapacity

end Transport
end BucketMount
