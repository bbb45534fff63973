import BucketMount.MountList.Wire

/-!
# One bucket scope for each mount path

Lists that were declared at different times are merged. Two directives may share a path if they show the same bucket
scope; a directive that is already in the list is not added again.
-/

namespace BucketMount

/-- Whether two directives claim one path for different buckets. -/
def Directive.Conflicts (d e : Directive) : Prop := d.path = e.path ∧ d.bucket.scope ≠ e.bucket.scope

instance (d e : Directive) : Decidable (d.Conflicts e) := by
  unfold Directive.Conflicts
  infer_instance

namespace MountList

/-- Refuses a candidate whose path belongs to another bucket scope; the first such entry is named. -/
def check (l : MountList) (candidate : Directive) : Except MountError Unit :=
  match l.find? (·.Conflicts candidate) with
  | some entry => .error (.conflict candidate.path entry.bucket.describe candidate.bucket.describe)
  | none => .ok ()

/-- The list with one more candidate, unless it is already there or conflicts. -/
def add (l : MountList) (candidate : Directive) : Except MountError MountList :=
  (l.check candidate).map fun _ => if candidate ∈ l then l else l ++ [candidate]

def merge (l candidates : MountList) : Except MountError MountList := candidates.foldlM add l

end MountList
end BucketMount
