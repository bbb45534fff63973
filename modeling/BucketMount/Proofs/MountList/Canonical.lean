import BucketMount.Proofs.MountList.RoundTrip
import Mathlib.Algebra.Order.BigOperators.Group.List

/-!
# The canonical text of a list

A list can be written in several ways: empty tokens are skipped when a text is
read, and flags that are empty count as none. There is no other freedom. What
is written for a list that was read is the text it was read from, without its
empty tokens and without the colon before empty flags (`encode_of_decode`), so
writing a list again never needs more room than the text it came from
(`utf8Size_canonical_le`).
-/

namespace BucketMount

/-- What a token says about the bucket, with the colon that ends it. -/
def Bucket.field : Bucket → Text
  | implicit => []
  | all => [':']
  | named name => name ++ [':']

@[simp] theorem Bucket.field_implicit : implicit.field = [] := rfl

@[simp] theorem Bucket.field_ofField (text : Text) : (ofField text).field = text ++ [':'] := by
  by_cases hnil : text = []
  · rw [hnil]
    rfl
  · rw [ofField_of_ne_nil hnil]
    rfl

namespace Directive

/-- A token with flags that are empty: it ends with the colon before them. That
is the first colon of a token that starts with a path, and the second one of a
token with a bucket field. -/
def EmptyFlags (t : Text) : Prop :=
  t.getLast? = some ':' ∧ t.count ':' = if '/' ∈ t.takeWhile (· ≠ ':') then 1 else 2

instance (t : Text) : Decidable (EmptyFlags t) := by
  unfold EmptyFlags
  infer_instance

/-- The token without the colon that stands for empty flags, if it has one. -/
def trimFlags (t : Text) : Text := if EmptyFlags t then t.dropLast else t

example : trimFlags "b:/p:".toList = "b:/p".toList ∧ trimFlags "/p:".toList = "/p".toList ∧
    trimFlags "/p::".toList = "/p::".toList := by decide

variable {t path : Text} {bucket : Bucket} {raw : Option Text} {d : Directive}

/-! ## Tokens with empty flags -/

theorem takeWhile_field {field rest : Text} (h : ':' ∉ field) :
    (field ++ ':' :: rest).takeWhile (· ≠ ':') = field := by
  rw [List.takeWhile_append_of_pos]
  · simp
  · intro c hc
    simpa using ne_of_mem_of_not_mem hc h

/-- What follows a colon is empty if the colon is the last one and comes last. -/
theorem eq_nil_iff_last_colon (front : Text) {flags : Text} :
    (front ++ ':' :: flags).getLast? = some ':' ∧ flags.count ':' = 0 ↔ flags = [] := by
  constructor
  · rintro ⟨hlast, hcount⟩
    by_contra hne
    rw [List.getLast?_append_of_ne_nil _ (List.cons_ne_nil _ _),
      List.getLast?_cons_of_ne_nil hne] at hlast
    exact List.count_eq_zero.mp hcount (List.mem_of_getLast? hlast)
  · rintro rfl
    simp

theorem emptyFlags_iff (h : Spells t bucket path raw) : EmptyFlags t ↔ raw = some [] := by
  unfold EmptyFlags
  -- the colons before the flags make up the whole count, so it says that flags have none
  cases h with
  | bare colon path_ne_nil =>
    have hlast : t.getLast? ≠ some ':' := fun hlast => colon (List.mem_of_getLast? hlast)
    simp [hlast]
  | @bareFlags path flags colon slash =>
    have hcount : path.count ':' = 0 := List.count_eq_zero.mpr colon
    rw [takeWhile_field colon, if_pos slash, Option.some_inj, ← eq_nil_iff_last_colon path]
    simp [hcount]
  | @field field path colon slash colon_path path_ne_nil =>
    have hfield : field.count ':' = 0 := List.count_eq_zero.mpr colon
    have hpath : path.count ':' = 0 := List.count_eq_zero.mpr colon_path
    rw [takeWhile_field colon, if_neg slash]
    simp [hfield, hpath]
  | @fieldFlags field path flags colon slash colon_path path_ne_nil =>
    have hfield : field.count ':' = 0 := List.count_eq_zero.mpr colon
    have hpath : path.count ':' = 0 := List.count_eq_zero.mpr colon_path
    rw [takeWhile_field colon, if_neg slash, Option.some_inj,
      ← eq_nil_iff_last_colon (field ++ ':' :: path)]
    simp [hfield, hpath]

/-! ## The token of a directive that was read -/

/-- The fields as a token spells them, with the colons between them. -/
def spelled (bucket : Bucket) (path : Text) (raw : Option Text) : Text :=
  bucket.field ++ path ++ raw.elim [] (':' :: ·)

theorem token_eq_spelled (d : Directive) : d.token = spelled d.bucket d.path d.flags := by
  unfold token spelled
  cases d.bucket <;> cases d.flags <;> rfl

theorem eq_spelled (h : Spells t bucket path raw) : t = spelled bucket path raw := by
  cases h <;> simp [spelled]

theorem spelled_keepFlags (bucket : Bucket) (path : Text) (raw : Option Text) :
    spelled bucket path (keepFlags raw) =
      if raw = some [] then (spelled bucket path raw).dropLast else spelled bucket path raw := by
  cases raw with
  | none => rfl
  | some flags =>
    rw [keepFlags_some_eq]
    by_cases hnil : flags = []
    · simp [hnil, spelled]
    · simp [hnil]

/-- The token of a directive that was read is the token it was read from,
without the colon of empty flags. -/
theorem token_of_parse (h : parse t = .ok d) : d.token = trimFlags t := by
  obtain ⟨raw, hspells, hflags⟩ := parse_eq_ok_iff.mp h
  calc
    d.token = spelled d.bucket d.path (keepFlags raw) := by rw [token_eq_spelled, hflags]
    _ = if raw = some [] then t.dropLast else t := by rw [spelled_keepFlags, ← eq_spelled hspells]
    _ = trimFlags t := by simp only [trimFlags, emptyFlags_iff hspells]

theorem utf8Size_trimFlags_le (t : Text) : Text.utf8Size (trimFlags t) ≤ Text.utf8Size t := by
  unfold trimFlags
  split
  · obtain ⟨rest, hrest⟩ := List.dropLast_prefix t
    have hsize := congrArg Text.utf8Size hrest
    rw [Text.utf8Size_append] at hsize
    omega
  · exact le_rfl

end Directive

namespace MountList

/-- The text without its empty tokens and the colons of empty flags. -/
def canonical (s : Text) : Text := [';'].intercalate ((tokens s).map Directive.trimFlags)

/-- What is written for a list that was read is the canonical form of its text. -/
theorem encode_of_decode {s : Text} {l : MountList} (h : decode s = .ok l) :
    encode l = canonical s := by
  have htokens : (tokens s).map Directive.trimFlags = l.map Directive.token := by
    rw [← List.forall₂_eq_eq_eq, List.forall₂_map_left_iff, List.forall₂_map_right_iff]
    exact (mapM_eq_ok_iff.mp h).imp fun _ _ hparse => (Directive.token_of_parse hparse).symm
  rw [encode, canonical, htokens]

/-- The canonical text is not longer: its tokens are some of the pieces of the
text, and none of them has grown. -/
theorem utf8Size_canonical_le (s : Text) :
    Text.utf8Size (canonical s) ≤ Text.utf8Size s := by
  have htrimmed : (((tokens s).map Directive.trimFlags).map fun t => Text.utf8Size t + 1).sum ≤
      ((tokens s).map fun t => Text.utf8Size t + 1).sum := by
    rw [List.map_map]
    apply List.sum_le_sum
    intro t _
    have := Directive.utf8Size_trimFlags_le t
    simp only [Function.comp_apply]
    omega
  have hpieces : ((tokens s).map fun t => Text.utf8Size t + 1).sum ≤
      ((s.splitOn ';').map fun t => Text.utf8Size t + 1).sum := by
    apply (List.filter_sublist.map _).sum_le_sum
    intro n _
    exact Nat.zero_le n
  calc
    Text.utf8Size (canonical s) =
        (((tokens s).map Directive.trimFlags).map fun t => Text.utf8Size t + 1).sum - 1 :=
      Text.utf8Size_intercalate ';' _
    _ ≤ ((s.splitOn ';').map fun t => Text.utf8Size t + 1).sum - 1 := by omega
    _ = Text.utf8Size ([';'].intercalate (s.splitOn ';')) :=
      (Text.utf8Size_intercalate ';' _).symm
    _ = Text.utf8Size s := by rw [List.intercalate_splitOn]

end MountList
end BucketMount
