import BucketMount.Proofs.MountList.Lenient

/-!
# The strict and the lenient reader

One reader stops at the first malformed token, the other one goes on and keeps
its error. They come to the same wherever both have something to say: the strict
reader gives the lenient list if there are no errors, and the first of the errors
if there are some (`decode_eq`).

Both go from token to token, so a text that is put together of two is read as the
one and then the other, and an empty token is no token at all (`tokens_compact`).
-/

namespace BucketMount

open Directive (ofToken? fault? parse)

/-- Every token is either a directive or an error. -/
theorem length_directives_add_faults (ts : List Text) :
    (ts.filterMap ofToken?).length + (ts.filterMap fault?).length = ts.length := by
  induction ts with
  | nil => rfl
  | cons t ts ih =>
    cases hparse : parse t with
    | ok d =>
      rw [List.filterMap_cons_some (Directive.ofToken?_of_ok hparse),
        List.filterMap_cons_none (Directive.fault?_of_ok hparse)]
      simp only [List.length_cons]
      omega
    | error e =>
      rw [List.filterMap_cons_none (Directive.ofToken?_of_error hparse),
        List.filterMap_cons_some (Directive.fault?_of_error hparse)]
      simp only [List.length_cons]
      omega

/-- Reading tokens one after the other gets to the end if none of them is
malformed, and else to the first that is. -/
theorem mapM_parse_eq (ts : List Text) :
    ts.mapM parse =
      match (ts.filterMap fault?).head? with
      | none => .ok (ts.filterMap ofToken?)
      | some e => .error e := by
  induction ts with
  | nil => rfl
  | cons t ts ih =>
    rw [List.mapM_cons]
    cases hparse : parse t with
    | error e =>
      rw [List.filterMap_cons_some (Directive.fault?_of_error hparse)]
      rfl
    | ok d =>
      rw [List.filterMap_cons_none (Directive.fault?_of_ok hparse),
        List.filterMap_cons_some (Directive.ofToken?_of_ok hparse), ih]
      cases (ts.filterMap fault?).head? <;> rfl

namespace MountList

/-! ## The two readers of one text -/

theorem decode_eq (s : Text) :
    decode s =
      match (decodeLenient s).2.head? with
      | none => .ok (decodeLenient s).1
      | some e => .error e := by
  rw [decodeLenient_eq]
  exact mapM_parse_eq (tokens s)

theorem decode_eq_ok_iff_lenient {s : Text} {l : MountList} :
    decode s = .ok l ↔ (decodeLenient s).2 = [] ∧ l = (decodeLenient s).1 := by
  rw [decode_eq]
  cases hfirst : (decodeLenient s).2.head? with
  | none =>
    have hnone : (decodeLenient s).2 = [] := List.head?_eq_none_iff.mp hfirst
    simp [hnone, eq_comm]
  | some e =>
    have hsome : (decodeLenient s).2 ≠ [] := by
      intro hnil
      rw [hnil] at hfirst
      cases hfirst
    simp [hsome]

theorem decode_eq_error_iff_lenient {s : Text} {e : MountError} :
    decode s = .error e ↔ (decodeLenient s).2.head? = some e := by
  rw [decode_eq]
  cases (decodeLenient s).2.head? <;> simp

/-! ## Texts that are put together -/

theorem decodeLenient_append (a b : Text) :
    decodeLenient (a ++ ';' :: b) =
      ((decodeLenient a).1 ++ (decodeLenient b).1, (decodeLenient a).2 ++ (decodeLenient b).2) := by
  simp only [decodeLenient_eq, tokens_append, List.filterMap_append]

/-- What fails is the first text, or else the second one. -/
theorem decode_append_eq_error_iff {a b : Text} {e : MountError} :
    decode (a ++ ';' :: b) = .error e ↔
      decode a = .error e ∨ (∃ l, decode a = .ok l) ∧ decode b = .error e := by
  simp only [decode_eq_error_iff_lenient, decode_eq_ok_iff_lenient, decodeLenient_append]
  cases hfaults : (decodeLenient a).2 with
  | nil => simp
  | cons e' faults => simp

/-! ## Empty tokens -/

@[simp] theorem tokens_nil : tokens [] = [] := rfl

theorem tokens_intercalate_flatMap (pieces : List Text) :
    tokens ([';'].intercalate pieces) = pieces.flatMap tokens := by
  induction pieces with
  | nil => rfl
  | cons piece pieces ih =>
    cases pieces with
    | nil => simp
    | cons next pieces =>
      have hcut : [';'].intercalate (piece :: next :: pieces) =
          piece ++ ';' :: [';'].intercalate (next :: pieces) := by
        rw [List.intercalate_cons_cons, List.append_assoc]
        rfl
      rw [hcut, tokens_append, ih]
      rfl

/-- Pieces that are empty add no tokens, wherever they stand. -/
theorem tokens_compact (pieces : List Text) :
    tokens ([';'].intercalate (pieces.filter (· ≠ []))) = tokens ([';'].intercalate pieces) := by
  rw [tokens_intercalate_flatMap, tokens_intercalate_flatMap]
  induction pieces with
  | nil => rfl
  | cons piece pieces ih =>
    by_cases hempty : piece = []
    · rw [hempty, List.filter_cons_of_neg (by simp), ih, List.flatMap_cons, tokens_nil,
        List.nil_append]
    · rw [List.filter_cons_of_pos (by simpa using hempty), List.flatMap_cons, List.flatMap_cons, ih]

/-- **The readers agree.** The tokens of a text are what it is cut into at the
semicolons. The lenient reader sorts them into directives and errors, and the
strict one gives the directives if there are no errors, or the first of these. A
text that is put together of two is read as the one and then the other, by either
reader; a text with empty tokens is read as if they were not there. -/
theorem readers_agree :
    (∀ s : Text,
      Text.Cut (· == ';') s (tokens s) ∧
      decodeLenient s = ((tokens s).filterMap ofToken?, (tokens s).filterMap fault?) ∧
      (decodeLenient s).1.length + (decodeLenient s).2.length = (tokens s).length ∧
      (∀ l, decode s = .ok l ↔ (decodeLenient s).2 = [] ∧ l = (decodeLenient s).1) ∧
      ∀ e, decode s = .error e ↔ (decodeLenient s).2.head? = some e) ∧
    (∀ a b : Text,
      decodeLenient (a ++ ';' :: b) = ((decodeLenient a).1 ++ (decodeLenient b).1,
        (decodeLenient a).2 ++ (decodeLenient b).2) ∧
      (∀ l, decode (a ++ ';' :: b) = .ok l ↔
        ∃ l₁ l₂, decode a = .ok l₁ ∧ decode b = .ok l₂ ∧ l = l₁ ++ l₂) ∧
      ∀ e, decode (a ++ ';' :: b) = .error e ↔
        decode a = .error e ∨ (∃ l, decode a = .ok l) ∧ decode b = .error e) ∧
    ∀ pieces : List Text,
      let dense := pieces.filter (· ≠ [])
      decode ([';'].intercalate dense) = decode ([';'].intercalate pieces) ∧
        decodeLenient ([';'].intercalate dense) = decodeLenient ([';'].intercalate pieces) := by
  refine ⟨fun s => ⟨cut_tokens s, decodeLenient_eq s, ?_, ?_, ?_⟩, fun a b => ⟨?_, ?_, ?_⟩,
    fun pieces => ⟨?_, ?_⟩⟩
  · rw [decodeLenient_eq]
    exact length_directives_add_faults (tokens s)
  · exact fun l => decode_eq_ok_iff_lenient
  · exact fun e => decode_eq_error_iff_lenient
  · exact decodeLenient_append a b
  · exact fun l => decode_append_eq_ok_iff
  · exact fun e => decode_append_eq_error_iff
  · rw [decode, decode, tokens_compact]
  · rw [decodeLenient, decodeLenient, tokens_compact]

end MountList
end BucketMount
