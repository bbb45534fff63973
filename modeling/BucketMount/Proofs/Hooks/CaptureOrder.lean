import BucketMount.Proofs.Hooks.CaptureRun

/-!
# Captures in another order, and captures made again

Two requests are granted one after the other exactly if each of them is
granted on what is stored, none of their directives are in each other's way,
and the list with all of them fits (`capturedBoth_iff`). Nothing in this
depends on which of the two comes first (`captures_commute`).

A directive that has been granted stays: later requests add to the list only
what does not conflict with it. So a request can be made again at any later
time, and changes nothing then (`capture_again`). What a later capture keeps
of it is `Slot.Absorbs`.
-/

namespace BucketMount

/-- A slot with the text of a list to which the candidates would add nothing:
all of them are in it, and none conflicts with what else is. -/
structure Slot.Absorbs (slot : Slot) (candidates l : MountList) : Prop where
  value : slot.value = some l.encode
  fits : Text.utf8Size l.encode + 1 ≤ slot.capacity
  encodable : ∀ d ∈ l, d.Encodable
  present : ∀ c ∈ candidates, c ∈ l
  compatible : l.Compatible candidates

theorem Slot.Absorbs.ofStored_eq {slot : Slot} {candidates l : MountList}
    (h : slot.Absorbs candidates l) : MountList.ofStored slot.value = .ok l := by
  rw [h.value]
  exact MountList.decode_encode_iff.mpr h.encodable

theorem Slot.Absorbs.keep_eq {slot : Slot} {candidates l : MountList}
    (h : slot.Absorbs candidates l) : slot.keep l = slot := by
  obtain ⟨value, capacity⟩ := slot
  exact congrArg (Slot.mk · capacity) h.value.symm

namespace Hooks

open MountList (decode encode ofStored)

variable {slot slot' : Slot} {stored : Option Text} {raw : Text} {base : Bytes}
variable {requested resolved existing merged : MountList}

/-! ## Two requests in either order -/

/-- Two requests, made one after the other, are both granted. -/
def CapturedBoth (slot : Slot) (first second : Text × Bytes) (merged : MountList)
    (slot' : Slot) : Prop :=
  ∃ l between, capture Transport.memory first.1 first.2 slot = (.ok l, between) ∧
    capture Transport.memory second.1 second.2 between = (.ok merged, slot')

/-- What two requests have to be so that both can be granted: each can be
granted by itself, and the directives of the one do not conflict with those
of the other. -/
structure GrantBoth (stored : Option Text) (first second : Text × Bytes)
    (requested₁ resolved₁ requested₂ resolved₂ existing : MountList) : Prop where
  first : Grant stored first.1 first.2 requested₁ resolved₁ existing
  second : Grant stored second.1 second.2 requested₂ resolved₂ existing
  compatible : existing.Compatible (resolved₁ ++ resolved₂)

variable {first second : Text × Bytes}
variable {requested₁ resolved₁ requested₂ resolved₂ : MountList}

theorem GrantBoth.symm
    (g : GrantBoth stored first second requested₁ resolved₁ requested₂ resolved₂ existing) :
    GrantBoth stored second first requested₂ resolved₂ requested₁ resolved₁ existing where
  first := g.second
  second := g.first
  compatible := (MountList.compatible_congr fun _ => List.perm_append_comm.mem_iff).mp g.compatible

theorem utf8Size_encode_extended (l candidates : MountList) :
    Text.utf8Size (encode l) ≤ Text.utf8Size (encode (l.extended candidates)) :=
  MountList.utf8Size_encode_append l _

/-- Two requests are granted one after the other exactly if they can both be
granted and the list with the directives of both fits. -/
theorem capturedBoth_iff :
    CapturedBoth slot first second merged slot' ↔
      (∃ requested₁ resolved₁ requested₂ resolved₂ existing,
        GrantBoth slot.value first second requested₁ resolved₁ requested₂ resolved₂ existing ∧
        merged = existing.extended (resolved₁ ++ resolved₂)) ∧
      Text.utf8Size (encode merged) + 1 ≤ slot.capacity ∧ slot' = slot.keep merged := by
  unfold CapturedBoth
  simp only [capture_eq_ok_iff]
  constructor
  · rintro ⟨_, _, ⟨⟨requested₁, resolved₁, existing, g₁, rfl⟩, _, rfl⟩,
      ⟨requested₂, resolved₂, existing₂, g₂, rfl⟩, hfit, rfl⟩
    -- the second request reads back what the first has written
    have hexisting : existing₂ = existing.extended resolved₁ :=
      Except.ok.inj (g₂.existing_eq.symm.trans g₁.ofStored_encode)
    subst hexisting
    have hcomp : existing.Compatible (resolved₁ ++ resolved₂) :=
      MountList.compatible_append_iff.mpr ⟨g₁.compatible, g₂.compatible⟩
    have hcomp₂ : existing.Compatible resolved₂ :=
      hcomp.of_subset fun _ => List.mem_append_right _
    refine ⟨⟨requested₁, resolved₁, requested₂, resolved₂, existing, ⟨g₁, ?_, hcomp⟩, ?_⟩,
      hfit, rfl⟩
    · exact ⟨g₂.requested_eq, g₂.requested_ne_nil, g₂.resolved_eq, g₁.existing_eq, hcomp₂⟩
    · exact (MountList.extended_append _ _ _).symm
  · rintro ⟨⟨requested₁, resolved₁, requested₂, resolved₂, existing, g, rfl⟩, hfit, rfl⟩
    obtain ⟨_, hcomp₂⟩ := MountList.compatible_append_iff.mp g.compatible
    rw [MountList.extended_append] at hfit ⊢
    -- the list in between is a start of the merged one, so it fits as well
    have hfit₁ : Text.utf8Size (encode (existing.extended resolved₁)) + 1 ≤ slot.capacity :=
      Nat.le_trans (Nat.succ_le_succ (utf8Size_encode_extended _ resolved₂)) hfit
    refine ⟨existing.extended resolved₁, slot.keep (existing.extended resolved₁),
      ⟨⟨_, _, _, g.first, rfl⟩, hfit₁, rfl⟩, ⟨requested₂, resolved₂, _, ?_, rfl⟩, hfit, rfl⟩
    exact ⟨g.second.requested_eq, g.second.requested_ne_nil, g.second.resolved_eq,
      g.first.ofStored_encode, hcomp₂⟩

/-- The other order grants both requests as well, with the same entries. -/
theorem CapturedBoth.swap (h : CapturedBoth slot first second merged slot') :
    ∃ merged₂, merged.Perm merged₂ ∧
      CapturedBoth slot second first merged₂ (slot.keep merged₂) := by
  obtain ⟨⟨requested₁, resolved₁, requested₂, resolved₂, existing, g, rfl⟩, hfit, _⟩ :=
    capturedBoth_iff.mp h
  have hperm : (existing.extended (resolved₁ ++ resolved₂)).Perm
      (existing.extended (resolved₂ ++ resolved₁)) :=
    MountList.extended_perm fun _ => List.perm_append_comm.mem_iff
  refine ⟨existing.extended (resolved₂ ++ resolved₁), hperm, capturedBoth_iff.mpr ?_⟩
  refine ⟨⟨requested₂, resolved₂, requested₁, resolved₁, existing, g.symm, rfl⟩, ?_, rfl⟩
  rwa [← MountList.utf8Size_encode_perm hperm]

theorem CapturedBoth.merged_unique {merged₂ : MountList} {slot₂ : Slot}
    (h : CapturedBoth slot first second merged slot')
    (h₂ : CapturedBoth slot first second merged₂ slot₂) : merged = merged₂ := by
  obtain ⟨_, _, hfirst, hsecond⟩ := h
  obtain ⟨_, _, hfirst₂, hsecond₂⟩ := h₂
  cases hfirst.symm.trans hfirst₂
  cases hsecond.symm.trans hsecond₂
  rfl

theorem CapturedBoth.slot_eq (h : CapturedBoth slot first second merged slot') :
    slot' = slot.keep merged :=
  (capturedBoth_iff.mp h).2.2

/-- What was stored is a start of the merged list. -/
theorem CapturedBoth.exists_prefix (h : CapturedBoth slot first second merged slot') :
    ∃ existing, ofStored slot.value = .ok existing ∧ existing <+: merged := by
  obtain ⟨⟨_, resolved₁, _, resolved₂, existing, g, rfl⟩, _⟩ := capturedBoth_iff.mp h
  exact ⟨existing, g.first.existing_eq, List.prefix_append _ _⟩

/-- **Captures commute.** Two requests are both granted in one order exactly
if they are in the other. The two lists then have the same entries, both
start with the list that was stored before, and the two texts have the same
size. -/
theorem captures_commute (slot : Slot) (a b : Text × Bytes) :
    ((∃ merged slot', CapturedBoth slot a b merged slot') ↔
      ∃ merged slot', CapturedBoth slot b a merged slot') ∧
    ∀ m slot₁ n slot₂, CapturedBoth slot a b m slot₁ → CapturedBoth slot b a n slot₂ →
      m.Perm n ∧
      (∃ existing, ofStored slot.value = .ok existing ∧ existing <+: m ∧ existing <+: n) ∧
      ∃ s t, slot₁.value = some s ∧ slot₂.value = some t ∧ Text.utf8Size s = Text.utf8Size t := by
  refine ⟨⟨?_, ?_⟩, ?_⟩
  · rintro ⟨m, slot₁, h⟩
    obtain ⟨n, _, hswap⟩ := h.swap
    exact ⟨n, _, hswap⟩
  · rintro ⟨n, slot₂, h⟩
    obtain ⟨m, _, hswap⟩ := h.swap
    exact ⟨m, _, hswap⟩
  · intro m slot₁ n slot₂ h₁ h₂
    obtain ⟨n', hperm, hswap⟩ := h₁.swap
    cases hswap.merged_unique h₂
    obtain ⟨existing, hstored, hprefix₁⟩ := h₁.exists_prefix
    obtain ⟨existing₂, hstored₂, hprefix₂⟩ := h₂.exists_prefix
    cases hstored.symm.trans hstored₂
    refine ⟨hperm, ⟨existing, hstored, hprefix₁, hprefix₂⟩, encode m, encode n, ?_, ?_,
      MountList.utf8Size_encode_perm hperm⟩
    · rw [h₁.slot_eq]
      rfl
    · rw [h₂.slot_eq]
      rfl

/-- A directive that both requests have is added by the one that comes first. -/
theorem captures_commute_shared :
    let slot : Slot := ⟨some "a:/x:".toList, 16⟩
    let first : Text × Bytes := ("b:/y;/z".toList, [0x2F])
    let second : Text × Bytes := ("/w;b:/y".toList, [])
    ∃ m slot₁ n slot₂, CapturedBoth slot first second m slot₁ ∧
      CapturedBoth slot second first n slot₂ ∧ m.Perm n ∧
      slot₁.value = some "a:/x;b:/y;/z;/w".toList ∧
      slot₂.value = some "a:/x;/w;b:/y;/z".toList := by
  intro slot first second
  obtain ⟨_, hboth⟩ := captures_commute slot first second
  obtain ⟨hperm, _⟩ := hboth _ _ _ _ ⟨_, _, rfl, rfl⟩ ⟨_, _, rfl, rfl⟩
  exact ⟨_, _, _, _, ⟨_, _, rfl, rfl⟩, ⟨_, _, rfl, rfl⟩, hperm, rfl, rfl⟩

/-! ## Requests that are made again -/

variable {candidates l : MountList}

/-- The slot absorbs the directives of a request that was granted. -/
theorem exists_absorbs_of_capture
    (h : capture Transport.memory raw base slot = (.ok merged, slot')) :
    ∃ requested resolved existing, Grant slot.value raw base requested resolved existing ∧
      slot'.Absorbs resolved merged := by
  obtain ⟨⟨requested, resolved, existing, g, rfl⟩, hfit, rfl⟩ := capture_eq_ok_iff.mp h
  refine ⟨requested, resolved, existing, g, rfl, hfit, g.encodable, ?_, ?_⟩
  · intro c hc
    exact MountList.mem_extended.mpr (Or.inr hc)
  · exact g.compatible.extended_self

/-- What a slot absorbs, it absorbs after another capture as well. -/
theorem absorbs_capture (h : slot.Absorbs candidates l)
    (hcapture : capture Transport.memory raw base slot = (.ok merged, slot')) :
    slot'.Absorbs candidates merged := by
  obtain ⟨⟨requested, resolved, existing, g, rfl⟩, hfit, rfl⟩ := capture_eq_ok_iff.mp hcapture
  have hexisting : existing = l := Except.ok.inj (g.existing_eq.symm.trans h.ofStored_eq)
  subst hexisting
  refine ⟨rfl, hfit, g.encodable, ?_, ?_⟩
  · intro c hc
    exact MountList.mem_extended.mpr (Or.inl (h.present c hc))
  · exact h.compatible.extended_of_subset h.present g.compatible

/-- What a slot absorbs, it absorbs after any captures. -/
theorem exists_absorbs_captureAll (h : slot.Absorbs candidates l)
    (requests : List (Text × Bytes)) :
    let run := captureAll requests slot
    ∃ current, lastGranted (.ok l :: run.1) = some current ∧ run.2.Absorbs candidates current := by
  refine captureAll_induction
    (fun last slot => ∃ current, last = some current ∧ slot.Absorbs candidates current) ?_
    [.ok l] slot ⟨l, rfl, h⟩ requests
  rintro _ _ _ _ merged _ ⟨_, _, habsorbs⟩ hcapture
  exact ⟨merged, rfl, absorbs_capture habsorbs hcapture⟩

/-- A request whose directives a slot absorbs is granted and changes nothing. -/
theorem capture_of_absorbs {stored : Option Text} {existing : MountList}
    (g : Grant stored raw base requested resolved existing) (h : slot.Absorbs resolved l) :
    capture Transport.memory raw base slot = (.ok l, slot) := by
  have hsame : l.extended resolved = l := MountList.extended_of_subset h.present
  refine capture_eq_ok_iff.mpr ⟨⟨requested, resolved, l, ?_, hsame.symm⟩, h.fits, h.keep_eq.symm⟩
  exact ⟨g.requested_eq, g.requested_ne_nil, g.resolved_eq, h.ofStored_eq, h.compatible⟩

/-- **Making a request again.** Once a request has been granted, it can be made
again after any other captures, whatever came of those: it is granted, it
answers the list that was answered last, which is the list that is stored,
and the slot stays as it is to the byte. -/
theorem capture_again (slot slot' : Slot) (raw : Text) (base : Bytes) (merged : MountList)
    (h : capture Transport.memory raw base slot = (.ok merged, slot'))
    (requests : List (Text × Bytes)) :
    let run := captureAll requests slot'
    ∃ current, lastGranted (.ok merged :: run.1) = some current ∧
      ofStored run.2.value = .ok current ∧
      capture Transport.memory raw base run.2 = (.ok current, run.2) := by
  intro run
  obtain ⟨requested, resolved, existing, g, habsorbs⟩ := exists_absorbs_of_capture h
  obtain ⟨current, hlast, hcurrent⟩ := exists_absorbs_captureAll habsorbs requests
  exact ⟨current, hlast, hcurrent.ofStored_eq, capture_of_absorbs g hcurrent⟩

/-- The stored text is not in the form in which it is written, one later request
is refused for a conflict and one is granted. -/
theorem capture_again_later :
    let slot : Slot := ⟨some ";a:/x:".toList, 13⟩
    let run := captureAll [("c:/y".toList, []), ("/z".toList, [])]
      (capture Transport.memory "b:/y".toList [0x2F] slot).2
    (∃ merged slot', capture Transport.memory "b:/y".toList [0x2F] slot = (.ok merged, slot')) ∧
    run.2.value = some "a:/x;b:/y;/z".toList ∧
    ∃ current, capture Transport.memory "b:/y".toList [0x2F] run.2 = (.ok current, run.2) := by
  intro slot run
  obtain ⟨current, _, _, hagain⟩ := capture_again slot _ "b:/y".toList [0x2F] _ rfl
    [("c:/y".toList, []), ("/z".toList, [])]
  exact ⟨⟨_, _, rfl⟩, rfl, current, hagain⟩

end Hooks
end BucketMount
