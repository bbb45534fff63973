import BucketMount.Proofs.MountList.RoundTrip

/-!
# Reading what can be read

The lenient reader keeps the directives and the errors of a text, each in the
order of the tokens (`decodeLenient_eq`). A token of a text holds no semicolon,
so the error of one that is no directive names all of it
(`Directive.parse_eq_error`).
-/

namespace BucketMount

namespace Directive

/-- The directive that a token asks for, if it is well-formed. -/
def ofToken? (t : Text) : Option Directive := (parse t).toOption

/-- The error of a token that is no directive. -/
def fault? (t : Text) : Option MountError :=
  match parse t with
  | .ok _ => none
  | .error e => some e

variable {t : Text} {d : Directive} {e : MountError}

theorem ofToken?_of_ok (h : parse t = .ok d) : ofToken? t = some d := by
  rw [ofToken?, h]
  rfl

theorem ofToken?_of_error (h : parse t = .error e) : ofToken? t = none := by
  rw [ofToken?, h]
  rfl

theorem fault?_of_ok (h : parse t = .ok d) : fault? t = none := by
  rw [fault?, h]

theorem fault?_of_error (h : parse t = .error e) : fault? t = some e := by
  rw [fault?, h]

end Directive

namespace MountList

/-- The lenient reader goes through the tokens once and sorts them. -/
theorem decodeLenient_eq (s : Text) :
    decodeLenient s =
      ((tokens s).filterMap Directive.ofToken?, (tokens s).filterMap Directive.fault?) := by
  unfold decodeLenient
  induction tokens s with
  | nil => rfl
  | cons t ts ih =>
    rw [List.foldr_cons, ih]
    cases h : Directive.parse t with
    | ok d =>
      rw [List.filterMap_cons_some (Directive.ofToken?_of_ok h),
        List.filterMap_cons_none (Directive.fault?_of_ok h)]
    | error e =>
      rw [List.filterMap_cons_none (Directive.ofToken?_of_error h),
        List.filterMap_cons_some (Directive.fault?_of_error h)]

/-- A text without malformed tokens is read by both readers alike. -/
theorem decodeLenient_of_decode {s : Text} {l : MountList} (h : decode s = .ok l) :
    decodeLenient s = (l, []) := by
  have hread : List.Forall₂ (fun t d => Directive.parse t = .ok d) (tokens s) l :=
    mapM_eq_ok_iff.mp h
  rw [decodeLenient_eq]
  clear h
  generalize tokens s = ts at hread ⊢
  induction hread with
  | nil => rfl
  | cons hparse _ ih =>
    obtain ⟨hdirectives, hfaults⟩ := Prod.mk.inj ih
    rw [List.filterMap_cons_some (Directive.ofToken?_of_ok hparse),
      List.filterMap_cons_none (Directive.fault?_of_ok hparse), hdirectives, hfaults]

end MountList
end BucketMount
