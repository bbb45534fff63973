import BucketMount.Error
import BucketMount.Text.Blank

/-!
# Mount directives

A directive asks for one mount: which bucket, at which path, with which flags for the helper. `Directive.make` is the
only way to build one and refuses fields that the written form could not carry; what it accepts is the predicate
`Directive.Admissible`, which every directive satisfies.
-/

namespace BucketMount

inductive Bucket where
  /-- No bucket field at all: a bare path, which stands for all buckets. -/
  | implicit
  /-- An empty bucket field, which stands for all buckets. -/
  | all
  /-- One bucket. -/
  | named (name : Text)
deriving DecidableEq, Repr

namespace Bucket

/-- What two directives for one path are compared by: both forms for all buckets are the same. -/
def scope : Bucket → Text
  | implicit | all => []
  | named name => name

/-- The bucket argument of the mount helper, if it gets one. -/
def helperArg : Bucket → Option Text
  | implicit | all => none
  | named name => some name

def describe : Bucket → Text
  | implicit | all => "<all buckets>".toList
  | named name => "'".toList ++ name ++ "'".toList

def isForbidden (c : Char) : Bool := c = ':' || c = ';' || c = '/'

/-- A bucket name has a character, and none that would end it. -/
def Admissible : Bucket → Prop
  | implicit | all => True
  | named name => name ≠ [] ∧ ∀ c ∈ name, ¬isForbidden c

end Bucket

/-- What the written form relies on. -/
structure Directive.Admissible (bucket : Bucket) (path : Text) (flags : Option Text) : Prop where
  bucket : bucket.Admissible
  path_ne_nil : path ≠ []
  colon_notMem_path : ':' ∉ path
  semicolon_notMem_path : ';' ∉ path
  flags_ne_nil : flags ≠ some []
  semicolon_notMem_flags : ∀ f ∈ flags, ';' ∉ f

structure Directive where
  bucket : Bucket
  path : Text
  flags : Option Text
  admissible : Directive.Admissible bucket path flags
deriving DecidableEq

namespace Directive

/-- Flags as they are kept: empty flags are no flags. -/
def keepFlags (flags : Option Text) : Option Text := flags.filter (· ≠ [])

def nameFault (name : Text) : Option ParseReason :=
  if name = [] then some .emptyBucketName else (name.find? Bucket.isForbidden).map .bucketNameContains

/-- The first fault of the fields, with the field it lies in. -/
def fieldFault (bucket : Bucket) (path : Text) (flags : Option Text) : Option (Text × ParseReason) :=
  let bucketFault := match bucket with
    | .named name => (nameFault name).map (name, ·)
    | _ => none
  bucketFault.or <|
    if path = [] then some (path, .emptyPath)
    else if ':' ∈ path ∨ ';' ∈ path then some (path, .separatorInPath)
    else match flags with
      | some f => if ';' ∈ f then some (f, .separatorInFlags) else none
      | none => none

theorem nameFault_eq_none_iff {name : Text} :
    nameFault name = none ↔ (Bucket.named name).Admissible := by
  unfold nameFault Bucket.Admissible
  split <;> simp_all

/-- The fields have no fault exactly when they can be written and read back. -/
theorem fieldFault_eq_none_iff {bucket : Bucket} {path : Text} {flags : Option Text} :
    fieldFault bucket path (keepFlags flags) = none ↔ Admissible bucket path (keepFlags flags) := by
  have hflags : keepFlags flags ≠ some [] := by
    cases flags <;> simp [keepFlags]
  have hbucket : (match bucket with
      | .named name => (nameFault name).map (name, ·)
      | _ => none : Option (Text × ParseReason)) = none ↔ bucket.Admissible := by
    cases bucket with
    | named name => simpa using nameFault_eq_none_iff
    | _ => simp [Bucket.Admissible]
  unfold fieldFault
  simp only [Option.or_eq_none_iff, hbucket]
  constructor
  · rintro ⟨hb, hrest⟩
    split at hrest
    · simp at hrest
    · split at hrest
      · simp at hrest
      · rename_i hp hs
        refine ⟨hb, hp, fun h => hs (.inl h), fun h => hs (.inr h), hflags, ?_⟩
        intro f hf
        rw [Option.mem_def.1 hf] at hrest
        intro hc
        simp [hc] at hrest
  · intro h
    refine ⟨h.bucket, ?_⟩
    have h2 := h.semicolon_notMem_flags
    simp only [h.path_ne_nil, h.colon_notMem_path, h.semicolon_notMem_path, or_self, ↓reduceIte]
    cases hk : keepFlags flags with
    | none => rfl
    | some f => simp [h2 f (by simp [hk])]

/-- The directive with these fields; the first field that could not be written is refused. -/
def make (bucket : Bucket) (path : Text) (flags : Option Text) : Except MountError Directive :=
  match h : fieldFault bucket path (keepFlags flags) with
  | some (field, reason) => .error (.parse field reason)
  | none => .ok ⟨bucket, path, keepFlags flags, fieldFault_eq_none_iff.1 h⟩

@[ext] theorem ext {d e : Directive} (bucket : d.bucket = e.bucket) (path : d.path = e.path)
    (flags : d.flags = e.flags) : d = e := by
  cases d
  cases e
  simp_all

/-- Building a directive keeps its fields, but for empty flags. -/
theorem make_eq_ok_iff {bucket : Bucket} {path : Text} {flags : Option Text} {d : Directive} :
    make bucket path flags = .ok d ↔
      d.bucket = bucket ∧ d.path = path ∧ d.flags = keepFlags flags := by
  unfold make
  split
  · rename_i field reason h
    constructor
    · intro h'
      cases h'
    · rintro ⟨rfl, rfl, hf⟩
      have := fieldFault_eq_none_iff.2 (hf ▸ d.admissible)
      rw [this] at h
      cases h
  · constructor
    · intro h'
      cases h'
      exact ⟨rfl, rfl, rfl⟩
    · rintro ⟨rfl, rfl, hf⟩
      exact congrArg Except.ok (Directive.ext rfl rfl hf.symm)

def isAbsolute (d : Directive) : Bool := d.path.head? = some '/'

/-- The flags as arguments of the helper; an argument with a blank cannot be expressed. -/
def flagArgs (d : Directive) : List Text := Text.words (d.flags.getD [])

def withPath (d : Directive) (path : Text) : Except MountError Directive := make d.bucket path d.flags

end Directive
end BucketMount
