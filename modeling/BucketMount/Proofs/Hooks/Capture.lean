import BucketMount.Hooks.Capture
import BucketMount.Proofs.MountList.Merge
import BucketMount.Proofs.MountList.Resolution

/-!
# What a capture does

A request goes through five stages: it is read, it is resolved, what is kept
so far is read, the two are merged, and the merged list is encoded for the
reader. `Grant` collects what the first four have to find;
`capture_eq_ok_iff` adds the last one and the new state of the slot.

Writing cannot fail for what it writes, only for its size: what was read is
encodable, what was resolved is absolute and so encodable, and a merged list
has no other entries (`Grant.encodable`). A refused request leaves the slot as
it was (`capture_eq_error`).
-/

namespace BucketMount

/-- The list that a stored text stands for; no text stands for the empty list. -/
def MountList.ofStored : Option Text → Except MountError MountList
  | none => .ok []
  | some t => decode t

/-- The slot with the text of a list in it. -/
def Slot.keep (slot : Slot) (l : MountList) : Slot := { slot with value := some l.encode }

namespace Hooks

open MountList (decode encode resolveAll ofStored)

/-- What the stages of a capture find in a request that is granted. -/
structure Grant (stored : Option Text) (raw : Text) (base : Bytes)
    (requested resolved existing : MountList) : Prop where
  requested_eq : decode raw = .ok requested
  requested_ne_nil : requested ≠ []
  resolved_eq : resolveAll base requested = .ok resolved
  existing_eq : ofStored stored = .ok existing
  compatible : existing.Compatible resolved

variable {slot slot' : Slot} {stored : Option Text} {raw : Text} {base : Bytes}
variable {requested resolved existing merged : MountList}

/-! ## The stages -/

/-- A request, stage by stage. -/
theorem admit_eq (stored : Option Text) (raw : Text) (base : Bytes) :
    MountList.admit raw base (.ok stored) =
      decode raw >>= fun requested =>
        if requested = [] then .error (.parse raw .nothingRequested)
        else resolveAll base requested >>= fun resolved =>
          ofStored stored >>= fun existing => existing.merge resolved := by
  unfold MountList.admit
  cases stored <;> rfl

theorem admit_eq_ok_iff :
    MountList.admit raw base (.ok stored) = .ok merged ↔
      ∃ requested resolved existing, Grant stored raw base requested resolved existing ∧
        merged = existing.extended resolved := by
  rw [admit_eq, bind_eq_ok_iff]
  constructor
  · rintro ⟨requested, hraw, h⟩
    split at h
    · cases h
    · rename_i hne
      obtain ⟨resolved, hresolved, h⟩ := bind_eq_ok_iff.mp h
      obtain ⟨existing, hexisting, h⟩ := bind_eq_ok_iff.mp h
      obtain ⟨hcomp, rfl⟩ := MountList.merge_eq_ok_iff.mp h
      exact ⟨requested, resolved, existing, ⟨hraw, hne, hresolved, hexisting, hcomp⟩, rfl⟩
  · rintro ⟨requested, resolved, existing, g, rfl⟩
    refine ⟨requested, g.requested_eq, ?_⟩
    rw [if_neg g.requested_ne_nil, bind_eq_ok_iff]
    refine ⟨resolved, g.resolved_eq, bind_eq_ok_iff.mpr ⟨existing, g.existing_eq, ?_⟩⟩
    exact MountList.merge_eq_ok_iff.mpr ⟨g.compatible, rfl⟩

/-- Why a request is not granted: something does not read, the base is no
directory to resolve against, or two directives conflict. -/
theorem admit_eq_error {e : MountError}
    (h : MountList.admit raw base (.ok stored) = .error e) :
    (∃ field reason, e = .parse field reason) ∨ e = .config (.baseNotText base) ∨
      (∃ t, e = .config (.baseNotAbsolute t)) ∨
      ∃ path existing requested, e = .conflict path existing requested := by
  rw [admit_eq] at h
  rcases bind_eq_error_iff.mp h with h | ⟨requested, _, h⟩
  · exact Or.inl (MountList.exists_of_decode_eq_error h)
  split at h
  · cases h
    exact Or.inl ⟨_, _, rfl⟩
  rcases bind_eq_error_iff.mp h with h | ⟨resolved, _, h⟩
  · obtain ⟨d, _, hd⟩ := exists_of_mapM_eq_error h
    rcases Directive.resolve_eq_error hd with hd | hparse
    · rcases baseDirectory_eq_error hd with he | he
      · exact Or.inr (Or.inl he)
      · exact Or.inr (Or.inr (Or.inl he))
    · exact Or.inl hparse
  rcases bind_eq_error_iff.mp h with h | ⟨existing, _, h⟩
  · cases stored with
    | none => cases h
    | some t => exact Or.inl (MountList.exists_of_decode_eq_error h)
  · obtain ⟨_, _, _, _, _, _, _, he⟩ := MountList.merge_eq_error_iff.mp h
    exact Or.inr (Or.inr (Or.inr ⟨_, _, _, he⟩))

/-- No stage before the writing refuses a directive as one that could not be
read back. -/
theorem admit_ne_readBackAsBucket (token : Text) :
    MountList.admit raw base (.ok stored) ≠ .error (.config (.readBackAsBucket token)) := by
  intro h
  rcases admit_eq_error h with ⟨_, _, he⟩ | he | ⟨_, he⟩ | ⟨_, _, _, he⟩ <;> cases he

theorem encodable_of_ofStored (h : ofStored stored = .ok existing) :
    ∀ d ∈ existing, d.Encodable := by
  cases stored with
  | none =>
    cases h
    intro d hd
    cases hd
  | some t => exact MountList.encodable_of_decode h

/-- What a request leads to can be written, whatever was stored. -/
theorem Grant.encodable (g : Grant stored raw base requested resolved existing) :
    ∀ d ∈ existing.extended resolved, d.Encodable := by
  intro d hd
  rcases MountList.mem_extended.mp hd with hd | hd
  · exact encodable_of_ofStored g.existing_eq d hd
  · exact MountList.encodable_of_resolveAll g.resolved_eq d hd

/-- A capture, stage by stage, wherever the text is kept. -/
theorem capture_eq {τ : Type} (transport : Transport τ) (raw : Text) (base : Bytes) (s : τ) :
    capture transport raw base s =
      match MountList.admit raw base (transport.load s) with
      | .error e => (.error (.refused e), s)
      | .ok merged =>
        match merged.encodeBounded (transport.capacity s) with
        | .error e => (.error (.refused e), s)
        | .ok encoded =>
          let (answer, s') := transport.store encoded s
          (answer.map fun _ => merged, s') := by
  change (match MountList.admit raw base (transport.load s) with
    | .error e => _
    | .ok merged => _ : StateM τ (Except Failure MountList)) s = _
  cases MountList.admit raw base (transport.load s) with
  | error e => rfl
  | ok merged =>
    simp only
    cases merged.encodeBounded (transport.capacity s) with
    | error e => rfl
    | ok encoded => rfl

/-! ## The slot -/

theorem capture_memory (slot : Slot) (raw : Text) (base : Bytes) :
    capture Transport.memory raw base slot =
      match MountList.admit raw base (.ok slot.value) with
      | .error e => (.error (.refused e), slot)
      | .ok merged =>
        match merged.encodeBounded slot.capacity with
        | .error e => (.error (.refused e), slot)
        | .ok encoded => (.ok merged, { slot with value := some encoded }) :=
  capture_eq Transport.memory raw base slot

/-- A capture succeeds exactly if the request is granted and the text of the
merged list fits; it answers that list and keeps its text. -/
theorem capture_eq_ok_iff :
    capture Transport.memory raw base slot = (.ok merged, slot') ↔
      (∃ requested resolved existing, Grant slot.value raw base requested resolved existing ∧
        merged = existing.extended resolved) ∧
      Text.utf8Size (encode merged) + 1 ≤ slot.capacity ∧ slot' = slot.keep merged := by
  rw [capture_memory, ← admit_eq_ok_iff]
  cases hadmit : MountList.admit raw base (.ok slot.value) with
  | error e =>
    constructor
    · intro h
      cases h
    · rintro ⟨h, _⟩
      cases h
  | ok m =>
    -- so the writing can fail for the size only
    have hall : ∀ d ∈ m, d.Encodable := by
      obtain ⟨_, _, _, g, rfl⟩ := admit_eq_ok_iff.mp hadmit
      exact g.encodable
    simp only
    cases hencode : m.encodeBounded slot.capacity with
    | error e =>
      have hfit : ¬Text.utf8Size (encode m) + 1 ≤ slot.capacity := by
        intro hfit
        rw [MountList.encodeBounded_eq_ok_iff.mpr ⟨hall, hfit, rfl⟩] at hencode
        cases hencode
      constructor
      · intro h
        cases h
      · rintro ⟨h, hfit', _⟩
        cases h
        exact absurd hfit' hfit
    | ok encoded =>
      obtain ⟨_, hfit, rfl⟩ := MountList.encodeBounded_eq_ok_iff.mp hencode
      constructor
      · intro h
        cases h
        exact ⟨rfl, hfit, rfl⟩
      · rintro ⟨h, _, rfl⟩
        cases h
        rfl

/-- A refused request leaves the slot as it was. -/
theorem capture_eq_error {failure : Failure}
    (h : capture Transport.memory raw base slot = (.error failure, slot')) : slot' = slot := by
  rw [capture_memory] at h
  split at h
  · cases h
    rfl
  · split at h
    · cases h
      rfl
    · cases h

theorem capture_ne_readBackAsBucket (token : Text) :
    (capture Transport.memory raw base slot).1 ≠
      .error (.refused (.config (.readBackAsBucket token))) := by
  rw [capture_memory]
  cases hadmit : MountList.admit raw base (.ok slot.value) with
  | error e =>
    intro h
    cases h
    exact admit_ne_readBackAsBucket token hadmit
  | ok m =>
    obtain ⟨_, _, _, g, rfl⟩ := admit_eq_ok_iff.mp hadmit
    simp only
    split
    · rename_i e hencode
      intro h
      rw [MountList.encodeBounded_eq_error g.encodable hencode] at h
      cases h
    · intro h
      cases h

/-! ## The exact outcome -/

/-- **Exact outcome.** A capture succeeds exactly if the request reads as some
directives, all of them can be resolved, the stored text reads as a list, no
resolved directive conflicts with that list or with another one, and the text
of the merged list fits with its closing zero. The merged list is the stored
one followed by the resolved directives that it does not have, each once and
in the order of the request; it is answered, and its text is stored. A capture
that fails leaves the slot as it was, and it never fails because a directive
could not be written. -/
theorem capture_exact (slot : Slot) (raw : Text) (base : Bytes) :
    (∀ merged slot', capture Transport.memory raw base slot = (.ok merged, slot') ↔
      ∃ requested resolved existing,
        decode raw = .ok requested ∧ requested ≠ [] ∧
        List.Forall₂ (fun d e => d.resolve base = .ok e) requested resolved ∧
        ofStored slot.value = .ok existing ∧
        (∀ c ∈ resolved, (∀ e ∈ existing, ¬e.Conflicts c) ∧ ∀ e ∈ resolved, ¬e.Conflicts c) ∧
        merged = existing ++ (resolved.filter (· ∉ existing)).eraseDups ∧
        Text.utf8Size (encode merged) + 1 ≤ slot.capacity ∧
        slot' = { slot with value := some (encode merged) }) ∧
    (∀ failure slot', capture Transport.memory raw base slot = (.error failure, slot') →
      slot' = slot ∧ ∀ token, failure ≠ .refused (.config (.readBackAsBucket token))) := by
  constructor
  · intro merged slot'
    rw [capture_eq_ok_iff]
    constructor
    · rintro ⟨⟨requested, resolved, existing, g, hmerged⟩, hfit, hslot⟩
      exact ⟨requested, resolved, existing, g.requested_eq, g.requested_ne_nil,
        mapM_eq_ok_iff.mp g.resolved_eq, g.existing_eq, g.compatible, hmerged, hfit, hslot⟩
    · rintro ⟨requested, resolved, existing, hraw, hne, hresolved, hexisting, hfree, hmerged,
        hfit, hslot⟩
      have g : Grant slot.value raw base requested resolved existing :=
        ⟨hraw, hne, mapM_eq_ok_iff.mpr hresolved, hexisting, hfree⟩
      exact ⟨⟨requested, resolved, existing, g, hmerged⟩, hfit, hslot⟩
  · intro failure slot' h
    refine ⟨capture_eq_error h, ?_⟩
    rintro token rfl
    exact capture_ne_readBackAsBucket token (congrArg Prod.fst h)

end Hooks
end BucketMount
