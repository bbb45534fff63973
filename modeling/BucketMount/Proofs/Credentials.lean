import BucketMount.Credentials
import BucketMount.Proofs.Fallible

/-!
# Becoming another user

What the one-way change to an identity (`Credentials.dropTo`) comes to. All
three requests together lead to `Credentials.become`, whatever is asked for by
the number that leaves an id as it is; the look at the result then refuses
exactly those identities that have this number for their user or group
(`Possible.actsAs_become_iff`), so that a change that succeeds has put every id
and the group list in place (`Possible.dropTo_eq_ok_iff`).
-/

namespace BucketMount

/-- The system knows all numbers that are asked for. -/
structure IdRules.Admits (rules : IdRules) (id : Identity) : Prop where
  groupsAllowed : rules.groupsAllowed
  groups : ∀ group ∈ id.groups, rules.isMapped group
  gid : id.gid = Credentials.unchanged ∨ rules.isMapped id.gid
  uid : id.uid = Credentials.unchanged ∨ rules.isMapped id.uid

namespace Credentials

variable {rules : IdRules} {id : Identity} {c c' : Credentials}

/-- What the three requests for an identity lead to. -/
def become (c : Credentials) (id : Identity) : Credentials where
  realUser := requested id.uid c.realUser
  effectiveUser := requested id.uid c.effectiveUser
  savedUser := requested id.uid c.savedUser
  realGroup := requested id.gid c.realGroup
  effectiveGroup := requested id.gid c.effectiveGroup
  savedGroup := requested id.gid c.savedGroup
  groups := id.groups

/-- No process holds the number that leaves an id as it is. -/
structure Possible (c : Credentials) : Prop where
  realUser : c.realUser ≠ unchanged
  effectiveUser : c.effectiveUser ≠ unchanged
  savedUser : c.savedUser ≠ unchanged
  realGroup : c.realGroup ≠ unchanged
  effectiveGroup : c.effectiveGroup ≠ unchanged
  savedGroup : c.savedGroup ≠ unchanged

@[simp] theorem requested_of_ne {n current : Nat} (h : n ≠ unchanged) : requested n current = n :=
  if_neg h

theorem requested_ne {n current : Nat} (h : current ≠ unchanged) :
    requested n current ≠ unchanged := by
  unfold requested
  split
  · exact h
  · assumption

theorem requested_eq_iff {n current : Nat} (h : current ≠ unchanged) :
    requested n current = n ↔ n ≠ unchanged := by
  constructor
  · intro hn hunchanged
    rw [requested, if_pos hunchanged] at hn
    exact h (hn.trans hunchanged)
  · exact requested_of_ne

/-! ## The three requests -/

section Ids

variable {privileged : Prop} [Decidable privileged] {asked held ids : Ids}

theorem setIds_eq_ok (h : setIds rules privileged asked held = .ok ids) :
    (∀ id ∈ asked.toList, MayRequest privileged held.toList id) ∧
      ids = ⟨requested asked.real held.real, requested asked.effective held.effective,
        requested asked.saved held.saved⟩ := by
  unfold setIds at h
  split at h
  · cases h
  · split at h
    · rename_i hmay
      cases h
      exact ⟨hmay, rfl⟩
    · cases h

/-- With privilege, one id that the system knows can be had in all three places. -/
theorem setIds_of_privileged (h : privileged) (n : Nat) (held : Ids) :
    setIds rules privileged ⟨n, n, n⟩ held =
      if n = unchanged ∨ rules.isMapped n then
        .ok ⟨requested n held.real, requested n held.effective, requested n held.saved⟩
      else .error .einval := by
  have hmay : ∀ id ∈ (Ids.mk n n n).toList, MayRequest privileged held.toList id :=
    fun _ _ => Or.inr (Or.inl h)
  unfold setIds
  rw [if_pos hmay]
  by_cases hknown : n = unchanged ∨ rules.isMapped n
  · rw [if_pos hknown, if_neg (by simpa [Ids.toList, Decidable.or_iff_not_imp_left] using hknown)]
  · rw [if_neg hknown, if_pos (by simpa [Ids.toList] using hknown)]

/-- Nobody gets to hold the number that leaves an id as it is by asking for ids. -/
theorem setIds_ne_unchanged (h : setIds rules privileged asked held = .ok ids)
    (real : held.real ≠ unchanged) (effective : held.effective ≠ unchanged)
    (saved : held.saved ≠ unchanged) :
    ids.real ≠ unchanged ∧ ids.effective ≠ unchanged ∧ ids.saved ≠ unchanged := by
  obtain ⟨-, rfl⟩ := setIds_eq_ok h
  exact ⟨requested_ne real, requested_ne effective, requested_ne saved⟩

end Ids

theorem possible_setGroups {groups : List Nat} (h : c.Possible)
    (hset : setGroups rules groups c = .ok c') : c'.Possible := by
  unfold setGroups at hset
  split at hset
  · cases hset
  · split at hset
    · cases hset
      exact { h with }
    · cases hset

theorem possible_dropTo (h : c.Possible) : (dropTo rules id c).2.Possible := by
  unfold dropTo
  split
  · exact h
  split
  · exact h
  next c₁ hgroups =>
  have h₁ := possible_setGroups h hgroups
  split
  · exact h₁
  next c₂ hgids =>
  obtain ⟨gids, hset, hkept⟩ := bind_eq_ok_iff.mp hgids
  obtain ⟨hreal, heffective, hsaved⟩ :=
    setIds_ne_unchanged hset h₁.realGroup h₁.effectiveGroup h₁.savedGroup
  cases hkept
  split
  · exact { h₁ with realGroup := hreal, effectiveGroup := heffective, savedGroup := hsaved }
  next c₃ huids =>
  obtain ⟨uids, hset', hkept⟩ := bind_eq_ok_iff.mp huids
  obtain ⟨hreal', heffective', hsaved'⟩ :=
    setIds_ne_unchanged hset' h₁.realUser h₁.effectiveUser h₁.savedUser
  cases hkept
  exact ⟨hreal', heffective', hsaved', hreal, heffective, hsaved⟩

theorem setGroups_of_privileged {groups : List Nat} (h : c.IsPrivileged) :
    setGroups rules groups c =
      if rules.groupsAllowed then
        if ∀ group ∈ groups, rules.isMapped group then .ok { c with groups := groups }
        else .error .einval
      else .error .eperm := by
  unfold setGroups
  by_cases hallowed : rules.groupsAllowed <;> simp [h, hallowed]

theorem dropTo_of_not_privileged (h : ¬c.IsPrivileged) :
    dropTo rules id c = (if c.ActsAs id then .ok () else .error .eperm, c) := by
  rw [dropTo, if_pos h]
  rfl

/-- A privileged process that asks for numbers the system knows is looked at
after its three requests; any other is refused one of them. -/
theorem dropTo_of_privileged (rules : IdRules) (id : Identity) (h : c.IsPrivileged) :
    (rules.Admits id ∧ dropTo rules id c = (verify id (c.become id), c.become id)) ∨
      ¬rules.Admits id ∧ ∃ e c', dropTo rules id c = (.error e, c') := by
  rw [dropTo, if_neg (not_not_intro h), setGroups_of_privileged h]
  by_cases hallowed : rules.groupsAllowed
  · by_cases hgroups : ∀ group ∈ id.groups, rules.isMapped group
    · rw [if_pos hallowed, if_pos hgroups]
      dsimp only
      -- the group list has no say in what a process may ask for
      rw [setGroupIds, setIds_of_privileged (by exact h)]
      by_cases hgid : id.gid = unchanged ∨ rules.isMapped id.gid
      · rw [if_pos hgid]
        dsimp only [bind, Except.bind, pure, Except.pure]
        rw [setUserIds, setIds_of_privileged (by exact h)]
        by_cases huid : id.uid = unchanged ∨ rules.isMapped id.uid
        · rw [if_pos huid]
          exact Or.inl ⟨⟨hallowed, hgroups, hgid, huid⟩, rfl⟩
        · rw [if_neg huid]
          exact Or.inr ⟨fun hadmits => huid hadmits.uid, _, _, rfl⟩
      · rw [if_neg hgid]
        exact Or.inr ⟨fun hadmits => hgid hadmits.gid, _, _, rfl⟩
    · rw [if_pos hallowed, if_neg hgroups]
      exact Or.inr ⟨fun hadmits => hgroups hadmits.groups, _, _, rfl⟩
  · rw [if_neg hallowed]
    exact Or.inr ⟨fun hadmits => hallowed hadmits.groupsAllowed, _, _, rfl⟩

theorem verify_eq_ok_iff : verify id c = .ok () ↔ c.ActsAs id := by
  unfold verify
  split
  · next h => exact iff_of_true rfl h
  · next h => exact iff_of_false (by simp) h

theorem dropTo_eq_become (hpriv : c.IsPrivileged) (h : (dropTo rules id c).1 = .ok ()) :
    (dropTo rules id c).2 = c.become id ∧ (c.become id).ActsAs id := by
  rcases dropTo_of_privileged rules id hpriv with
    ⟨_, hdrop⟩ | ⟨_, e, c', hdrop⟩
  · rw [hdrop] at h ⊢
    exact ⟨rfl, verify_eq_ok_iff.mp h⟩
  · rw [hdrop] at h
    cases h

/-- A change that succeeds is seen to have its effect. -/
theorem actsAs_of_dropTo (h : (dropTo rules id c).1 = .ok ()) : (dropTo rules id c).2.ActsAs id := by
  by_cases hpriv : c.IsPrivileged
  · obtain ⟨hbecome, hacts⟩ := dropTo_eq_become hpriv h
    rw [hbecome]
    exact hacts
  · rw [dropTo_of_not_privileged hpriv] at h ⊢
    split at h
    · assumption
    · cases h

/-- Of a privileged process nothing is left when it has become someone else: it
cannot return by the saved ids, nor act by a group it was in. That its real group
is not the number that leaves an id as it is, is so of every process. -/
theorem saved_of_dropTo (hpriv : c.IsPrivileged) (h : (dropTo rules id c).1 = .ok ()) :
    (dropTo rules id c).2.savedUser = id.uid ∧ (dropTo rules id c).2.groups = id.groups ∧
      (c.realGroup ≠ unchanged → (dropTo rules id c).2.savedGroup = id.gid) := by
  obtain ⟨hbecome, -, heffective, hreal, -⟩ := dropTo_eq_become hpriv h
  have huser : c.effectiveUser ≠ unchanged := by
    rw [show c.effectiveUser = 0 from hpriv]
    decide
  have hu : id.uid ≠ unchanged := (requested_eq_iff huser).mp heffective
  rw [hbecome]
  refine ⟨requested_of_ne hu, rfl, fun hgroup => ?_⟩
  have hg : id.gid ≠ unchanged := (requested_eq_iff hgroup).mp hreal
  exact requested_of_ne hg

theorem become_of_ne (hu : id.uid ≠ unchanged) (hg : id.gid ≠ unchanged) :
    c.become id = .ofUser id.uid id.gid id.groups := by
  simp only [become, ofUser, requested_of_ne hu, requested_of_ne hg]

/-- The look at the result finds out who asked for the number that leaves an id
as it is. -/
theorem Possible.actsAs_become_iff (h : c.Possible) :
    (c.become id).ActsAs id ↔ id.uid ≠ unchanged ∧ id.gid ≠ unchanged := by
  unfold ActsAs become
  rw [requested_eq_iff h.realUser, requested_eq_iff h.effectiveUser, requested_eq_iff h.realGroup,
    requested_eq_iff h.effectiveGroup]
  exact ⟨fun ⟨hu, _, hg, _⟩ => ⟨hu, hg⟩, fun ⟨hu, hg⟩ => ⟨hu, hu, hg, hg⟩⟩

/-- A privileged process becomes exactly the identities whose numbers the system
knows and that name a user and a group, and then nothing is left of whom it was. -/
theorem Possible.dropTo_eq_ok_iff (h : c.Possible) (hpriv : c.IsPrivileged) :
    dropTo rules id c = (.ok (), c') ↔
      (rules.Admits id ∧ id.uid ≠ unchanged ∧ id.gid ≠ unchanged) ∧
        c' = .ofUser id.uid id.gid id.groups := by
  rcases dropTo_of_privileged rules id hpriv with
    ⟨hadmits, hdrop⟩ | ⟨hrefused, e, c'', hdrop⟩
  · rw [hdrop, Prod.mk.injEq, verify_eq_ok_iff, h.actsAs_become_iff]
    constructor
    · rintro ⟨⟨hu, hg⟩, rfl⟩
      exact ⟨⟨hadmits, hu, hg⟩, become_of_ne hu hg⟩
    · rintro ⟨⟨_, hu, hg⟩, rfl⟩
      exact ⟨⟨hu, hg⟩, become_of_ne hu hg⟩
  · rw [hdrop]
    constructor
    · intro hok
      cases congrArg Prod.fst hok
    · rintro ⟨⟨hadmits, _⟩, _⟩
      exact absurd hadmits hrefused

end Credentials
end BucketMount
