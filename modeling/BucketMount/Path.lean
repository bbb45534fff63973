import BucketMount.Text.Basic

/-!
# Paths by their components

A path is any bytes. Two spellings of a path name the same place if they have the same components: repeated slashes, a
slash at the end and single dots do not count, but for a dot at the very start of a relative path.
-/

namespace BucketMount

inductive PathComponent where
  | root
  | here
  | parent
  | entry (name : Bytes)
deriving DecidableEq, Repr

namespace PathName

def slash : UInt8 := 0x2F

def dot : UInt8 := 0x2E

def pieces (path : Bytes) : List Bytes := path.splitOn slash

/-- The step that a piece between two slashes stands for, if any. -/
def step? (piece : Bytes) : Option PathComponent :=
  if piece = [] ∨ piece = [dot] then none
  else if piece = [dot, dot] then some .parent
  else some (.entry piece)

def components (path : Bytes) : List PathComponent :=
  let start :=
    if path.head? = some slash then [PathComponent.root]
    else if (pieces path).head? = some [dot] then [.here] else []
  start ++ (pieces path).filterMap step?

/-- Whether two paths have the same components. -/
def Same (p q : Bytes) : Prop := components p = components q

instance (p q : Bytes) : Decidable (Same p q) := by
  unfold Same
  infer_instance

end PathName
end BucketMount
