import BucketMount.Proofs.Hooks.Capture
import Mathlib.Data.List.Induction

/-!
# Captures one after the other

Requests that are made one after the other (`captureAll`) add to one list. A
slot that started empty always holds the text of the list that was answered
last (`captureAll_sound`): what one capture keeps is the invariant `Keeps`,
and the round trip makes it enough for the next capture.

Two requests can as well be made as one, with a semicolon between them
(`capture_joined`): writing the list in between and reading it again loses
nothing, and if the longer list fits then the shorter one did.
-/

namespace BucketMount

namespace MountList

/-- A list whose directives are not in each other's way. -/
structure Sound (l : MountList) : Prop where
  absolute : ∀ d ∈ l, d.isAbsolute
  nodup : l.Nodup
  free : ∀ d ∈ l, ∀ e ∈ l, ¬d.Conflicts e

theorem sound_nil : Sound [] := ⟨by simp, List.nodup_nil, by simp⟩

theorem Sound.encodable {l : MountList} (h : l.Sound) : ∀ d ∈ l, d.Encodable :=
  fun d hd => Directive.encodable_of_isAbsolute (h.absolute d hd)

/-- A sound list has one scope for each path as it is written. -/
theorem Sound.scope_eq {l : MountList} (h : l.Sound) {d e : Directive} (hd : d ∈ l) (he : e ∈ l)
    (hpath : d.path = e.path) : d.bucket.scope = e.bucket.scope :=
  Decidable.byContradiction fun hscope => h.free d hd e he ⟨hpath, hscope⟩

/-- Compatible candidates with absolute paths leave a list sound. -/
theorem Sound.extended {l candidates : MountList} (h : l.Sound)
    (habs : ∀ d ∈ candidates, d.isAbsolute) (hcomp : l.Compatible candidates) :
    (l.extended candidates).Sound where
  absolute := by
    intro d hd
    rcases mem_extended.mp hd with hd | hd
    · exact h.absolute d hd
    · exact habs d hd
  nodup := nodup_extended h.nodup candidates
  free := hcomp.free_extended h.free

theorem extended_ne_nil {l candidates : MountList} (h : candidates ≠ []) :
    l.extended candidates ≠ [] := by
  obtain ⟨c, hc⟩ := List.exists_mem_of_ne_nil _ h
  exact List.ne_nil_of_mem (mem_extended.mpr (Or.inr hc))

end MountList

/-- A slot with the text of a sound list in it, which fits. -/
structure Slot.Keeps (slot : Slot) (l : MountList) : Prop where
  value : slot.value = some l.encode
  fits : Text.utf8Size l.encode + 1 ≤ slot.capacity
  ne_nil : l ≠ []
  sound : l.Sound

/-- What is kept reads back: paths that are absolute make the list encodable. -/
theorem Slot.Keeps.ofStored_eq {slot : Slot} {l : MountList} (h : slot.Keeps l) :
    MountList.ofStored slot.value = .ok l := by
  rw [h.value]
  exact MountList.decode_encode_iff.mpr h.sound.encodable

/-- A slot after some captures: what was answered last is kept, and nothing is
in it before the first answer. -/
def Slot.Holds (slot : Slot) : Option MountList → Prop
  | none => slot.value = none
  | some l => slot.Keeps l

namespace Hooks

open MountList (decode encode resolveAll ofStored tokens)

variable {slot slot' : Slot} {stored : Option Text} {raw raw₁ raw₂ : Text} {base : Bytes}
variable {requested resolved existing merged : MountList}

/-! ## Two requests as one -/

theorem Grant.resolved_ne_nil (g : Grant stored raw base requested resolved existing) :
    resolved ≠ [] := by
  have hlength := (mapM_eq_ok_iff.mp g.resolved_eq).length_eq
  have hne := g.requested_ne_nil
  rw [← List.length_pos_iff] at hne ⊢
  omega

/-- What was granted and written is read again by the next request. -/
theorem Grant.ofStored_encode (g : Grant stored raw base requested resolved existing) :
    ofStored (some (encode (existing.extended resolved))) = .ok (existing.extended resolved) :=
  MountList.decode_encode_iff.mpr g.encodable

/-- A request and one that is granted after it are granted as one. -/
theorem Grant.append {requested₁ requested₂ resolved₁ resolved₂ : MountList}
    (g₁ : Grant stored raw₁ base requested₁ resolved₁ existing)
    (g₂ : Grant (some (encode (existing.extended resolved₁))) raw₂ base requested₂ resolved₂
      (existing.extended resolved₁)) :
    Grant stored (raw₁ ++ ';' :: raw₂) base (requested₁ ++ requested₂)
      (resolved₁ ++ resolved₂) existing where
  requested_eq := MountList.decode_append_eq_ok_iff.mpr
    ⟨requested₁, requested₂, g₁.requested_eq, g₂.requested_eq, rfl⟩
  requested_ne_nil := by simp [g₁.requested_ne_nil]
  resolved_eq := mapM_append_eq_ok_iff.mpr
    ⟨resolved₁, resolved₂, g₁.resolved_eq, g₂.resolved_eq, rfl⟩
  existing_eq := g₁.existing_eq
  compatible := MountList.compatible_append_iff.mpr ⟨g₁.compatible, g₂.compatible⟩

/-- If two requests are granted as one, then so are the first and, after it,
the second. -/
theorem Grant.split (h₁ : tokens raw₁ ≠ []) (h₂ : tokens raw₂ ≠ [])
    (g : Grant stored (raw₁ ++ ';' :: raw₂) base requested resolved existing) :
    ∃ requested₁ requested₂ resolved₁ resolved₂, resolved = resolved₁ ++ resolved₂ ∧
      Grant stored raw₁ base requested₁ resolved₁ existing ∧
      Grant (some (encode (existing.extended resolved₁))) raw₂ base requested₂ resolved₂
        (existing.extended resolved₁) := by
  obtain ⟨requested₁, requested₂, hraw₁, hraw₂, rfl⟩ :=
    MountList.decode_append_eq_ok_iff.mp g.requested_eq
  obtain ⟨resolved₁, resolved₂, hres₁, hres₂, rfl⟩ := mapM_append_eq_ok_iff.mp g.resolved_eq
  obtain ⟨hcomp₁, hcomp₂⟩ := MountList.compatible_append_iff.mp g.compatible
  have hne₁ : requested₁ ≠ [] := mt (MountList.decode_eq_nil_iff hraw₁).mp h₁
  have hne₂ : requested₂ ≠ [] := mt (MountList.decode_eq_nil_iff hraw₂).mp h₂
  have g₁ : Grant stored raw₁ base requested₁ resolved₁ existing :=
    ⟨hraw₁, hne₁, hres₁, g.existing_eq, hcomp₁⟩
  exact ⟨requested₁, requested₂, resolved₁, resolved₂, rfl, g₁,
    ⟨hraw₂, hne₂, hres₂, g₁.ofStored_encode, hcomp₂⟩⟩

/-- **Joined captures.** Two requests that each ask for something, with a
semicolon between them, succeed exactly if the first does and then the second
on what the first has left; both ways answer the same list and leave the same
text. If the joined request is refused, the slot stays as it was. -/
theorem capture_joined (slot : Slot) (raw₁ raw₂ : Text) (base : Bytes)
    (h₁ : tokens raw₁ ≠ []) (h₂ : tokens raw₂ ≠ []) :
    (∀ merged slot',
      capture Transport.memory (raw₁ ++ ';' :: raw₂) base slot = (.ok merged, slot') ↔
      ∃ first between, capture Transport.memory raw₁ base slot = (.ok first, between) ∧
        capture Transport.memory raw₂ base between = (.ok merged, slot')) ∧
    ∀ failure slot',
      capture Transport.memory (raw₁ ++ ';' :: raw₂) base slot = (.error failure, slot') →
        slot' = slot := by
  refine ⟨?_, fun failure slot' h => capture_eq_error h⟩
  intro merged slot'
  simp only [capture_eq_ok_iff]
  constructor
  · rintro ⟨⟨requested, resolved, existing, g, rfl⟩, hfit, rfl⟩
    obtain ⟨requested₁, requested₂, resolved₁, resolved₂, rfl, g₁, g₂⟩ := g.split h₁ h₂
    rw [MountList.extended_append] at hfit ⊢
    -- the intermediate list is a start of the merged one, so it fits as well
    have hfit₁ : Text.utf8Size (encode (existing.extended resolved₁)) + 1 ≤ slot.capacity := by
      have hgrow := MountList.utf8Size_encode_append (existing.extended resolved₁)
        ((existing.extended resolved₁).newcomers resolved₂)
      exact Nat.le_trans (Nat.succ_le_succ hgrow) hfit
    exact ⟨existing.extended resolved₁, slot.keep (existing.extended resolved₁),
      ⟨⟨_, _, _, g₁, rfl⟩, hfit₁, rfl⟩, ⟨_, _, _, g₂, rfl⟩, hfit, rfl⟩
  · rintro ⟨first, between, ⟨⟨requested₁, resolved₁, existing, g₁, rfl⟩, _, rfl⟩,
      ⟨requested₂, resolved₂, existing₂, g₂, rfl⟩, hfit, rfl⟩
    -- the second request reads back what the first has written
    have hexisting : existing₂ = existing.extended resolved₁ :=
      Except.ok.inj (g₂.existing_eq.symm.trans g₁.ofStored_encode)
    subst hexisting
    rw [← MountList.extended_append] at hfit ⊢
    exact ⟨⟨_, _, _, g₁.append g₂, rfl⟩, hfit, rfl⟩

/-- The same list is kept whether two requests are made as one or not. -/
theorem capture_joined_two :
    tokens "a:/x".toList ≠ [] ∧ tokens "/y:f".toList ≠ [] ∧
    ∃ first between merged slot',
      capture Transport.memory "a:/x".toList [0x2F] ⟨some "a:/x:".toList, 16⟩ =
        (.ok first, between) ∧
      capture Transport.memory "/y:f".toList [0x2F] between = (.ok merged, slot') ∧
      slot'.value = some "a:/x;/y:f".toList := by
  have h₁ : tokens "a:/x".toList ≠ [] := by decide
  have h₂ : tokens "/y:f".toList ≠ [] := by decide
  obtain ⟨hjoined, _⟩ := capture_joined ⟨some "a:/x:".toList, 16⟩ _ _ [0x2F] h₁ h₂
  obtain ⟨first, between, hfirst, hsecond⟩ := (hjoined _ _).mp rfl
  exact ⟨h₁, h₂, first, between, _, _, hfirst, hsecond, rfl⟩

/-! ## Any number of requests -/

/-- The answers to requests that are made one after the other. -/
def captureAll (requests : List (Text × Bytes)) : StateM Slot (List (Except Failure MountList)) :=
  requests.mapM fun (raw, base) => capture Transport.memory raw base

/-- The list that was answered by the last request that was granted. -/
def lastGranted (answers : List (Except Failure MountList)) : Option MountList :=
  (answers.filterMap Except.toOption).getLast?

theorem captureAll_snoc (requests : List (Text × Bytes)) (raw : Text) (base : Bytes)
    (slot : Slot) :
    captureAll (requests ++ [(raw, base)]) slot =
      let before := captureAll requests slot
      let last := capture Transport.memory raw base before.2
      (before.1 ++ [last.1], last.2) := by
  unfold captureAll
  rw [List.mapM_append]
  rfl

theorem lastGranted_snoc_ok (answers : List (Except Failure MountList)) (l : MountList) :
    lastGranted (answers ++ [.ok l]) = some l := by
  simp [lastGranted, Except.toOption]

theorem lastGranted_snoc_error (answers : List (Except Failure MountList)) (failure : Failure) :
    lastGranted (answers ++ [.error failure]) = lastGranted answers := by
  simp [lastGranted, Except.toOption]

/-- A slot after some captures can be read. -/
theorem exists_ofStored_of_holds {last : Option MountList} (h : slot.Holds last) :
    ∃ l, ofStored slot.value = .ok l := by
  cases last with
  | none =>
    have hnone : slot.value = none := h
    rw [hnone]
    exact ⟨[], rfl⟩
  | some l => exact ⟨l, Slot.Keeps.ofStored_eq h⟩

/-- The list that is read from a slot is sound, and it is the one that was
answered last. -/
theorem sound_of_ofStored {last : Option MountList} (h : slot.Holds last)
    (hexisting : ofStored slot.value = .ok existing) : existing.Sound := by
  cases last with
  | none =>
    rw [show slot.value = none from h] at hexisting
    cases hexisting
    exact MountList.sound_nil
  | some l =>
    have hkeeps : slot.Keeps l := h
    rw [Except.ok.inj (hexisting.symm.trans hkeeps.ofStored_eq)]
    exact hkeeps.sound

/-- What a capture answers is kept. -/
theorem keeps_of_capture {last : Option MountList} (h : slot.Holds last)
    (hcapture : capture Transport.memory raw base slot = (.ok merged, slot')) :
    slot'.Keeps merged := by
  obtain ⟨⟨requested, resolved, existing, g, rfl⟩, hfit, rfl⟩ := capture_eq_ok_iff.mp hcapture
  have hsound := sound_of_ofStored h g.existing_eq
  exact ⟨rfl, hfit, MountList.extended_ne_nil g.resolved_ne_nil,
    hsound.extended (MountList.isAbsolute_of_resolveAll g.resolved_eq) g.compatible⟩

theorem capacity_of_capture
    (hcapture : capture Transport.memory raw base slot = (.ok merged, slot')) :
    slot'.capacity = slot.capacity := by
  obtain ⟨_, _, rfl⟩ := capture_eq_ok_iff.mp hcapture
  rfl

/-- What holds of a slot and the list that was answered last, and again of what
a granted capture leaves, holds after any captures. -/
theorem captureAll_induction (P : Option MountList → Slot → Prop)
    (hgranted : ∀ {last slot raw base merged slot'}, P last slot →
      capture Transport.memory raw base slot = (.ok merged, slot') → P (some merged) slot')
    (answers : List (Except Failure MountList)) (slot : Slot) (h : P (lastGranted answers) slot)
    (requests : List (Text × Bytes)) :
    let run := captureAll requests slot
    P (lastGranted (answers ++ run.1)) run.2 := by
  -- by the last request: one that is refused leaves all as it is
  induction requests using List.reverseRecOn with
  | nil =>
    change P (lastGranted (answers ++ [])) slot
    rwa [List.append_nil]
  | append_singleton requests request ih =>
    obtain ⟨raw, base⟩ := request
    simp only [captureAll_snoc, ← List.append_assoc]
    cases hcapture : capture Transport.memory raw base (captureAll requests slot).2 with
    | mk answer slot' =>
      cases answer with
      | error failure =>
        rw [lastGranted_snoc_error, capture_eq_error hcapture]
        exact ih
      | ok merged =>
        rw [lastGranted_snoc_ok]
        exact hgranted ih hcapture

/-- After any captures the slot holds the list that was answered last. -/
theorem holds_captureAll (capacity : Nat) (requests : List (Text × Bytes)) :
    let run := captureAll requests ⟨none, capacity⟩
    run.2.capacity = capacity ∧ run.2.Holds (lastGranted run.1) := by
  refine captureAll_induction (fun last slot => slot.capacity = capacity ∧ slot.Holds last) ?_
    [] ⟨none, capacity⟩ ⟨rfl, rfl⟩ requests
  rintro last slot raw base merged slot' ⟨hcapacity, hholds⟩ hcapture
  exact ⟨(capacity_of_capture hcapture).trans hcapacity, keeps_of_capture hholds hcapture⟩

/-- **What a slot can hold.** A slot that was empty is still empty after some
captures if none of them succeeded. Otherwise its text fits with the closing
zero, and it is exactly the text of the list that was answered last: a list
that reads back, is not empty, has only absolute paths, no directive twice and
no two directives for one path with different bucket scopes. -/
theorem captureAll_sound (capacity : Nat) (requests : List (Text × Bytes)) :
    let run := captureAll requests ⟨none, capacity⟩
    (run.2.value = none ∧ lastGranted run.1 = none) ∨
      ∃ s l, run.2.value = some s ∧ Text.utf8Size s + 1 ≤ capacity ∧
        decode s = .ok l ∧ l ≠ [] ∧ encode l = s ∧ lastGranted run.1 = some l ∧
        (∀ d ∈ l, d.path.head? = some '/') ∧ l.Nodup ∧
        ∀ d ∈ l, ∀ e ∈ l, d.path = e.path → d.bucket.scope = e.bucket.scope := by
  intro run
  obtain ⟨hcapacity, hholds⟩ := holds_captureAll capacity requests
  change run.2.capacity = capacity at hcapacity
  change run.2.Holds (lastGranted run.1) at hholds
  cases hlast : lastGranted run.1 with
  | none =>
    rw [hlast] at hholds
    exact Or.inl ⟨hholds, rfl⟩
  | some l =>
    rw [hlast] at hholds
    have hkeeps : run.2.Keeps l := hholds
    refine Or.inr ⟨encode l, l, hkeeps.value, hcapacity ▸ hkeeps.fits,
      MountList.decode_encode_iff.mpr hkeeps.sound.encodable, hkeeps.ne_nil, rfl, rfl,
      ?_, hkeeps.sound.nodup, ?_⟩
    · intro d hd
      simpa [Directive.isAbsolute] using hkeeps.sound.absolute d hd
    · intro d hd e he hpath
      exact hkeeps.sound.scope_eq hd he hpath

end Hooks
end BucketMount
