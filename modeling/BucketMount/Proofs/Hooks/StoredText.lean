import BucketMount.Proofs.Hooks.Capture
import BucketMount.Proofs.MountList.Canonical

/-!
# Writing a stored list again

The stored text need not be one that a capture has written. If it stands for a
list at all then a capture that adds nothing to that list writes its canonical
form, which is not longer. So whatever has room for the stored text has room
for what is written, and a request for directives that are all there is never
too large (`capture_of_present`).
-/

namespace BucketMount.Hooks

open MountList (decode encode encodeBounded resolveAll tokens)

variable {τ : Type} {stored raw : Text} {base : Bytes} {l : MountList}

/-- A list that was read fits where its text does. -/
theorem encodeBounded_of_decode {capacity : Nat} (h : decode stored = .ok l)
    (hfits : Text.utf8Size stored + 1 ≤ capacity) :
    encodeBounded l capacity = .ok (encode l) := by
  apply MountList.encodeBounded_eq_ok_iff.mpr
  refine ⟨MountList.encodable_of_decode h, ?_, rfl⟩
  have hsize := MountList.utf8Size_canonical_le stored
  rw [← MountList.encode_of_decode h] at hsize
  omega

/-- A request for directives that are all in the stored list comes to writing
that list again, or is refused for what it asks and not for its size. -/
theorem capture_of_present (transport : Transport τ) {st : τ}
    (hload : transport.load st = .ok (some stored)) (hread : decode stored = .ok l)
    (hfits : Text.utf8Size stored + 1 ≤ transport.capacity st)
    (hpresent : ∀ requested resolved, decode raw = .ok requested →
      resolveAll base requested = .ok resolved → ∀ d ∈ resolved, d ∈ l) :
    (∃ answer st', transport.store (encode l) st = (answer, st') ∧
      capture transport raw base st = (answer.map fun _ => l, st')) ∨
    ∃ e, capture transport raw base st = (.error (.refused e), st) ∧
      ∀ size capacity, e ≠ .config (.listTooLarge size capacity) := by
  rw [capture_eq, hload]
  cases hadmit : MountList.admit raw base (.ok (some stored)) with
  | error e =>
    refine Or.inr ⟨e, rfl, ?_⟩
    intro size capacity
    rcases admit_eq_error hadmit with ⟨_, _, rfl⟩ | rfl | ⟨_, rfl⟩ | ⟨_, _, _, rfl⟩ <;> simp
  | ok merged =>
    obtain ⟨requested, resolved, existing, g, rfl⟩ := admit_eq_ok_iff.mp hadmit
    -- the request adds nothing, so the merged list is the stored one
    cases hread.symm.trans g.existing_eq
    rw [MountList.extended_of_subset (hpresent _ _ g.requested_eq g.resolved_eq)]
    simp only [encodeBounded_of_decode hread hfits]
    exact Or.inl ⟨_, _, rfl, rfl⟩

/-- **Writing again is canonical and never needs more room.** Let a text stand
for a list. Then the list is encodable and is read back from what is written
for it, and writing what was read back changes nothing more. What is written
is the text without its empty tokens and without the colon of empty flags in
each token; it is not longer, and fits any reader that the text fits. So a
request for directives that are all there, on any transport that holds the text
within its capacity, gets as far as storing the list or is refused for another
reason than its size. -/
theorem reencoding_canonical {s : Text} {l : MountList} (h : decode s = .ok l) :
    (∀ d ∈ l, d.Encodable) ∧
    decode (encode l) = .ok l ∧
    (decode (encode l)).map encode = .ok (encode l) ∧
    encode l = [';'].intercalate ((tokens s).map Directive.trimFlags) ∧
    Text.utf8Size (encode l) ≤ Text.utf8Size s ∧
    (∀ capacity, Text.utf8Size s + 1 ≤ capacity → encodeBounded l capacity = .ok (encode l)) ∧
    ∀ (τ : Type) (transport : Transport τ) (st : τ) (raw : Text) (base : Bytes),
      transport.load st = .ok (some s) → Text.utf8Size s + 1 ≤ transport.capacity st →
      (∀ requested resolved, decode raw = .ok requested →
        resolveAll base requested = .ok resolved → ∀ d ∈ resolved, d ∈ l) →
      (∃ answer st', transport.store (encode l) st = (answer, st') ∧
        capture transport raw base st = (answer.map fun _ => l, st')) ∨
      ∃ e, capture transport raw base st = (.error (.refused e), st) ∧
        ∀ size capacity, e ≠ .config (.listTooLarge size capacity) := by
  have hencodable := MountList.encodable_of_decode h
  have hback : decode (encode l) = .ok l := MountList.decode_encode_iff.mpr hencodable
  have hcanonical := MountList.encode_of_decode h
  refine ⟨hencodable, hback, ?_, hcanonical, ?_, ?_, ?_⟩
  · rw [hback]
    rfl
  · rw [hcanonical]
    exact MountList.utf8Size_canonical_le s
  · intro capacity hfits
    exact encodeBounded_of_decode h hfits
  · intro τ transport st raw base hload hfits hpresent
    exact capture_of_present transport hload h hfits hpresent

/-- A text with every freedom, in a slot that it fills, and a request for its
first directive. -/
theorem reencoding_canonical_loose :
    let s : Text := ";b:/x:;;/y::;".toList
    let slot : Slot := ⟨some s, 14⟩
    ∃ l, decode s = .ok l ∧ encode l = "b:/x;/y::".toList ∧
      capture Transport.memory "b:/x".toList [] slot = (.ok l, slot.keep l) := by
  intro s slot
  obtain ⟨l, d, hread, hraw, hresolved, hmem⟩ : ∃ l d, decode s = .ok l ∧
      decode "b:/x".toList = .ok [d] ∧ resolveAll [] [d] = .ok [d] ∧ d ∈ l :=
    ⟨_, _, rfl, rfl, rfl, List.mem_cons_self⟩
  obtain ⟨_, _, _, hcanonical, _, _, hcapture⟩ := reencoding_canonical hread
  refine ⟨l, hread, hcanonical.trans (by decide), ?_⟩
  have hpresent : ∀ requested resolved, decode "b:/x".toList = .ok requested →
      resolveAll [] requested = .ok resolved → ∀ e ∈ resolved, e ∈ l := by
    intro requested resolved hrequested h e he
    cases hraw.symm.trans hrequested
    cases hresolved.symm.trans h
    cases List.mem_singleton.mp he
    exact hmem
  obtain ⟨_, _, hgranted⟩ : ∃ m slot', capture Transport.memory "b:/x".toList [] slot =
      (.ok m, slot') := ⟨_, _, rfl⟩
  rcases hcapture Slot Transport.memory slot "b:/x".toList [] rfl (by decide) hpresent with
    ⟨_, _, hstore, h⟩ | ⟨_, h, _⟩
  · cases hstore
    exact h
  · cases hgranted.symm.trans h

end BucketMount.Hooks
