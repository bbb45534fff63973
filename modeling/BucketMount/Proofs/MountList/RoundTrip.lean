import BucketMount.Proofs.Directive.Grammar
import BucketMount.Proofs.Text.Cut
import Mathlib.Algebra.Order.Ring.Nat

/-!
# Reading back what was written

A text is read token by token, so all about a list is said token by token
here: the tokens of a text that was written are the tokens of the directives
(`tokens_encode`), the tokens of two texts in a row are those of the one and
those of the other (`tokens_append`), and the size of a text is the sum of
the sizes of its tokens, each with its separator (`utf8Size_encode`).

The exact round trip (`encode_round_trip`) is then the one of a single token.
-/

namespace BucketMount

/-- The size of pieces that are put together: each counts with a separator,
and there is one separator too many. -/
theorem Text.utf8Size_intercalate (sep : Char) (ts : List Text) :
    utf8Size ([sep].intercalate ts) =
      (ts.map fun t => utf8Size t + sep.utf8Size).sum - sep.utf8Size := by
  induction ts with
  | nil => simp
  | cons t ts ih =>
    cases ts with
    | nil => simp
    | cons t' ts =>
      rw [List.intercalate_cons_cons, utf8Size_append, utf8Size_append, ih]
      simp only [List.map_cons, List.sum_cons, utf8Size_cons, utf8Size_nil]
      omega

namespace MountList

/-! ## Tokens -/

/-- The tokens of a text are what it is cut into at the semicolons. -/
theorem cut_tokens (s : Text) : Text.Cut (· == ';') s (tokens s) := Text.cut_iff.mpr rfl

theorem tokens_append (s t : Text) : tokens (s ++ ';' :: t) = tokens s ++ tokens t :=
  Text.pieces_append_cons (p := (· == ';')) rfl s t

theorem semicolon_notMem_of_mem_tokens {s t : Text} (h : t ∈ tokens s) : ';' ∉ t :=
  fun hmem => (cut_tokens s).solid t h ';' hmem rfl

/-- Pieces that could be tokens are the tokens of what they are put together to. -/
theorem tokens_intercalate {ts : List Text} (h : ∀ t ∈ ts, t ≠ [] ∧ ';' ∉ t) :
    tokens ([';'].intercalate ts) = ts := by
  cases ts with
  | nil => rfl
  | cons t ts =>
    unfold tokens
    rw [List.splitOn_intercalate ';' (fun t ht => (h t ht).2) (List.cons_ne_nil _ _)]
    apply List.filter_eq_self.mpr
    intro t ht
    simpa using (h t ht).1

theorem tokens_encode (l : MountList) : tokens (encode l) = l.map Directive.token := by
  apply tokens_intercalate
  intro t ht
  obtain ⟨d, _, rfl⟩ := List.mem_map.mp ht
  exact ⟨d.token_ne_nil, d.semicolon_notMem_token⟩

/-! ## Reading -/

theorem encodable_of_decode {s : Text} {l : MountList} (h : decode s = .ok l) :
    ∀ d ∈ l, d.Encodable := by
  intro d hd
  obtain ⟨t, _, ht⟩ := exists_of_mem_of_mapM_eq_ok h hd
  exact Directive.encodable_of_parse ht

theorem exists_of_decode_eq_error {t : Text} {e : MountError} (h : decode t = .error e) :
    ∃ field reason, e = .parse field reason := by
  obtain ⟨token, _, htoken⟩ := exists_of_mapM_eq_error h
  exact Directive.exists_of_parse_eq_error htoken

/-- A list is empty if it was read from a text without tokens. -/
theorem decode_eq_nil_iff {s : Text} {l : MountList} (h : decode s = .ok l) :
    l = [] ↔ tokens s = [] := by
  have hlength := (mapM_eq_ok_iff.mp h).length_eq
  rw [← List.length_eq_zero_iff, ← List.length_eq_zero_iff, hlength]

theorem decode_append_eq_ok_iff {s t : Text} {l : MountList} :
    decode (s ++ ';' :: t) = .ok l ↔
      ∃ l₁ l₂, decode s = .ok l₁ ∧ decode t = .ok l₂ ∧ l = l₁ ++ l₂ := by
  unfold decode
  rw [tokens_append]
  exact mapM_append_eq_ok_iff

theorem decode_encode_iff {l : MountList} :
    decode (encode l) = .ok l ↔ ∀ d ∈ l, d.Encodable := by
  constructor
  · exact encodable_of_decode
  · intro h
    unfold decode
    rw [tokens_encode, List.mapM_map]
    apply mapM_self_eq_ok
    intro d hd
    exact Directive.parse_token_iff.mpr (h d hd)

/-! ## Sizes -/

theorem utf8Size_encode (l : MountList) :
    Text.utf8Size (encode l) = (l.map fun d => Text.utf8Size d.token + 1).sum - 1 := by
  unfold encode
  rw [Text.utf8Size_intercalate, List.map_map]
  rfl

/-- The text grows with the list. -/
theorem utf8Size_encode_append (l m : MountList) :
    Text.utf8Size (encode l) ≤ Text.utf8Size (encode (l ++ m)) := by
  rw [utf8Size_encode, utf8Size_encode, List.map_append, List.sum_append]
  omega

/-- The size of the text does not depend on the order of the list. -/
theorem utf8Size_encode_perm {l m : MountList} (h : l.Perm m) :
    Text.utf8Size (encode l) = Text.utf8Size (encode m) := by
  rw [utf8Size_encode, utf8Size_encode, (h.map _).sum_nat]

theorem encodeBounded_eq_ok_iff {l : MountList} {capacity : Nat} {s : Text} :
    encodeBounded l capacity = .ok s ↔
      (∀ d ∈ l, d.Encodable) ∧ Text.utf8Size (encode l) + 1 ≤ capacity ∧ s = encode l := by
  unfold encodeBounded
  cases hfind : l.find? (¬·.Encodable) with
  | some d =>
    have hd : ¬d.Encodable := by simpa using List.find?_some hfind
    constructor
    · intro h
      cases h
    · rintro ⟨hall, _⟩
      exact absurd (hall d (List.mem_of_find?_eq_some hfind)) hd
  | none =>
    have hall : ∀ d ∈ l, d.Encodable := by simpa using hfind
    by_cases hfits : Text.utf8Size (encode l) + 1 ≤ capacity
    · simp only [if_pos hfits, Except.ok.injEq]
      exact ⟨fun h => ⟨hall, hfits, h.symm⟩, fun h => h.2.2.symm⟩
    · simp only [if_neg hfits]
      constructor
      · intro h
        cases h
      · rintro ⟨_, h, _⟩
        exact absurd h hfits

/-- An encodable list is refused for its size only. -/
theorem encodeBounded_eq_error {l : MountList} {capacity : Nat} {e : MountError}
    (hall : ∀ d ∈ l, d.Encodable) (h : encodeBounded l capacity = .error e) :
    e = .config (.listTooLarge (Text.utf8Size (encode l)) capacity) := by
  have hfind : l.find? (¬·.Encodable) = none := by simpa using hall
  unfold encodeBounded at h
  rw [hfind] at h
  simp only at h
  split at h
  · cases h
  · cases h
    rfl

/-! ## The exact round trip -/

/-- **Exact round trip.** A list of directives, each as `Directive.make` builds
them (`Directive.make_fields`), is read back from its text exactly if all of
them are encodable. A bounded text is given exactly to those lists that are
read back from it and whose text leaves room for the closing zero. -/
theorem encode_round_trip (l : MountList) (capacity : Nat) :
    (decode (encode l) = .ok l ↔ ∀ d ∈ l, d.Encodable) ∧
    (∀ s, encodeBounded l capacity = .ok s ↔
      (∀ d ∈ l, d.Encodable) ∧ Text.utf8Size (encode l) + 1 ≤ capacity ∧ s = encode l) ∧
    ∀ s, encodeBounded l capacity = .ok s → decode s = .ok l := by
  refine ⟨decode_encode_iff, fun s => encodeBounded_eq_ok_iff, ?_⟩
  intro s h
  obtain ⟨hall, _, rfl⟩ := encodeBounded_eq_ok_iff.mp h
  exact decode_encode_iff.mpr hall

end MountList
end BucketMount
