import BucketMount.Proofs.Credentials
import Mathlib.Logic.Basic

/-!
# The way back to the superuser

A process may later ask for other users, by any of the requests the system has
(`UserRequest`). One that holds the superuser in none of its three ids never
gets to hold it again: no request brings in a user that is not held
(`holdsRoot_of_serve`), so no run of requests does (`not_holdsRoot_afterAll`).

A process that changes itself to a job user with privilege is left in this
state. One without privilege only has its real and effective ids looked at, and
a saved superuser is a way back: the change is for good exactly if the process
was privileged or had none saved (`regains_iff`).
-/

namespace BucketMount

/-- A request of a process to act for another user. -/
inductive UserRequest where
  /-- Sets the real, effective and saved user. -/
  | all (real effective saved : Nat)
  /-- Sets the real and effective user; the saved one follows. -/
  | pair (real effective : Nat)
  /-- Sets the effective user. -/
  | effective (user : Nat)
deriving DecidableEq, Repr

namespace Credentials

variable {rules : IdRules} {id : Identity} {c c' : Credentials}

/-- The saved user after the real and effective ones have been set: it follows
a new effective user if the real one was asked for as well, or if it is not
the one that was real. -/
def savedAfterPair (real effective : Nat) (c : Credentials) : Nat :=
  if real ≠ unchanged ∨ effective ≠ unchanged ∧ effective ≠ c.realUser then
    requested effective c.effectiveUser
  else c.savedUser

/-- Sets the real and effective user. A process without privilege cannot make
its saved user the real one. -/
def setUserPair (rules : IdRules) (real effective : Nat) (c : Credentials) :
    Except Errno Credentials :=
  if ¬[real, effective].all fun id => id = unchanged || rules.isMapped id then .error .einval
  else if MayRequest c.IsPrivileged [c.realUser, c.effectiveUser] real ∧
      MayRequest c.IsPrivileged [c.realUser, c.effectiveUser, c.savedUser] effective then
    .ok { c with
      realUser := requested real c.realUser
      effectiveUser := requested effective c.effectiveUser
      savedUser := savedAfterPair real effective c }
  else .error .eperm

/-- Answers a request. -/
def serve (rules : IdRules) (c : Credentials) : UserRequest → Except Errno Credentials
  | .all real effective saved => setUserIds rules real effective saved c
  | .pair real effective => setUserPair rules real effective c
  | .effective user =>
    if user = unchanged then .error .einval
    else setUserIds rules unchanged user unchanged c

/-- The credentials after a request; one that is refused changes nothing. -/
def after (rules : IdRules) (c : Credentials) (request : UserRequest) : Credentials :=
  match serve rules c request with
  | .ok c' => c'
  | .error _ => c

/-- The credentials after some requests. -/
def afterAll (rules : IdRules) (c : Credentials) (requests : List UserRequest) : Credentials :=
  requests.foldl (after rules) c

/-- The users that a process holds. -/
def heldUsers (c : Credentials) : List Nat := [c.realUser, c.effectiveUser, c.savedUser]

/-- Whether a process has the superuser in one of its ids. -/
def HoldsRoot (c : Credentials) : Prop := 0 ∈ c.heldUsers

instance (c : Credentials) : Decidable c.HoldsRoot := by
  unfold HoldsRoot
  infer_instance

theorem not_holdsRoot_iff :
    ¬c.HoldsRoot ↔ c.realUser ≠ 0 ∧ c.effectiveUser ≠ 0 ∧ c.savedUser ≠ 0 := by
  simp only [HoldsRoot, heldUsers, List.mem_cons, List.not_mem_nil, or_false, not_or,
    eq_comm (a := 0), Ne]

/-! ## What a request can bring in -/

theorem setUserIds_eq_ok {real effective saved : Nat}
    (h : setUserIds rules real effective saved c = .ok c') :
    (∀ user ∈ [real, effective, saved], MayRequest c.IsPrivileged c.heldUsers user) ∧
      c' = { c with
        realUser := requested real c.realUser
        effectiveUser := requested effective c.effectiveUser
        savedUser := requested saved c.savedUser } := by
  obtain ⟨ids, hset, hkept⟩ := bind_eq_ok_iff.mp h
  obtain ⟨hmay, rfl⟩ := setIds_eq_ok hset
  cases hkept
  exact ⟨hmay, rfl⟩

theorem setUserPair_eq_ok {real effective : Nat}
    (h : setUserPair rules real effective c = .ok c') :
    (MayRequest c.IsPrivileged [c.realUser, c.effectiveUser] real ∧
        MayRequest c.IsPrivileged c.heldUsers effective) ∧
      c' = { c with
        realUser := requested real c.realUser
        effectiveUser := requested effective c.effectiveUser
        savedUser := savedAfterPair real effective c } := by
  unfold setUserPair at h
  split at h
  · cases h
  · split at h
    · rename_i hmay
      cases h
      exact ⟨hmay, rfl⟩
    · cases h

/-- Who does not hold the superuser cannot ask for it with success. -/
theorem requested_ne_zero (h : ¬c.HoldsRoot) {user current : Nat} (hcurrent : current ∈ c.heldUsers)
    (hmay : MayRequest c.IsPrivileged c.heldUsers user) : requested user current ≠ 0 := by
  unfold requested
  split
  · rintro rfl
    exact h hcurrent
  · rename_i hne
    rintro rfl
    rcases hmay with hunchanged | hprivileged | hheld
    · exact hne hunchanged
    · exact (not_holdsRoot_iff.mp h).2.1 hprivileged
    · exact h hheld

theorem not_holdsRoot_of_setUserIds {real effective saved : Nat} (h : ¬c.HoldsRoot)
    (hset : setUserIds rules real effective saved c = .ok c') : ¬c'.HoldsRoot := by
  obtain ⟨hmay, rfl⟩ := setUserIds_eq_ok hset
  rw [not_holdsRoot_iff]
  refine ⟨?_, ?_, ?_⟩
  · exact requested_ne_zero h (by simp [heldUsers]) (hmay real (by simp))
  · exact requested_ne_zero h (by simp [heldUsers]) (hmay effective (by simp))
  · exact requested_ne_zero h (by simp [heldUsers]) (hmay saved (by simp))

theorem not_holdsRoot_of_setUserPair {real effective : Nat} (h : ¬c.HoldsRoot)
    (hset : setUserPair rules real effective c = .ok c') : ¬c'.HoldsRoot := by
  obtain ⟨⟨hreal, heffective⟩, rfl⟩ := setUserPair_eq_ok hset
  have hreal' : MayRequest c.IsPrivileged c.heldUsers real :=
    hreal.imp_right (Or.imp_right fun hmem => by
      simp only [heldUsers, List.mem_cons, List.not_mem_nil, or_false] at hmem ⊢
      omega)
  have hnew : requested effective c.effectiveUser ≠ 0 :=
    requested_ne_zero h (by simp [heldUsers]) heffective
  rw [not_holdsRoot_iff]
  refine ⟨requested_ne_zero h (by simp [heldUsers]) hreal', hnew, ?_⟩
  -- the saved user is the new effective one, or stays
  change savedAfterPair real effective c ≠ 0
  unfold savedAfterPair
  split
  · exact hnew
  · exact (not_holdsRoot_iff.mp h).2.2

/-- A request brings in no superuser that was not held. -/
theorem not_holdsRoot_after (h : ¬c.HoldsRoot) (request : UserRequest) :
    ¬(after rules c request).HoldsRoot := by
  unfold after
  split
  · rename_i c' hserve
    cases request with
    | all real effective saved => exact not_holdsRoot_of_setUserIds h hserve
    | pair real effective => exact not_holdsRoot_of_setUserPair h hserve
    | effective user =>
      simp only [serve] at hserve
      split at hserve
      · cases hserve
      · exact not_holdsRoot_of_setUserIds h hserve
  · exact h

/-- Neither do any requests. -/
theorem not_holdsRoot_afterAll (h : ¬c.HoldsRoot) (requests : List UserRequest) :
    ¬(afterAll rules c requests).HoldsRoot := by
  induction requests generalizing c with
  | nil => exact h
  | cons request requests ih => exact ih (not_holdsRoot_after h request)

/-! ## The change to a job user -/

/-- Who holds the superuser can act for it. -/
theorem effectiveUser_after (hmapped : rules.isMapped 0) (h : c.HoldsRoot) :
    (after rules c (.effective 0)).effectiveUser = 0 := by
  have hmay : ∀ user ∈ [unchanged, 0, unchanged], MayRequest c.IsPrivileged c.heldUsers user := by
    simp only [List.mem_cons, List.not_mem_nil, or_false]
    rintro user (rfl | rfl | rfl)
    · exact Or.inl rfl
    · exact Or.inr (Or.inr h)
    · exact Or.inl rfl
  have hserve : serve rules c (.effective 0) = .ok { c with effectiveUser := 0 } := by
    have hset : setIds rules c.IsPrivileged ⟨unchanged, 0, unchanged⟩
        ⟨c.realUser, c.effectiveUser, c.savedUser⟩ = .ok ⟨c.realUser, 0, c.savedUser⟩ := by
      rw [setIds, if_neg (by simp [Ids.toList, hmapped])]
      exact if_pos hmay
    have hzero : 0 ≠ unchanged := by decide
    simp only [serve, if_neg hzero, setUserIds, hset]
    rfl
  rw [after, hserve]

/-- A change to a job user leaves the superuser held only if the process had it
saved and was not privileged. -/
theorem holdsRoot_dropTo_iff (huid : id.uid ≠ 0) (h : (dropTo rules id c).1 = .ok ()) :
    (dropTo rules id c).2.HoldsRoot ↔ ¬c.IsPrivileged ∧ c.savedUser = 0 := by
  obtain ⟨hreal, heffective, _, _⟩ := actsAs_of_dropTo h
  have hsaved : (dropTo rules id c).2.HoldsRoot ↔ (dropTo rules id c).2.savedUser = 0 := by
    rw [← not_iff_not, not_holdsRoot_iff, hreal, heffective]
    exact ⟨fun h => h.2.2, fun h => ⟨huid, huid, h⟩⟩
  rw [hsaved]
  by_cases hpriv : c.IsPrivileged
  · rw [(saved_of_dropTo hpriv h).1]
    exact iff_of_false huid fun hnot => hnot.1 hpriv
  · rw [dropTo_of_not_privileged hpriv]
    exact ⟨fun h => ⟨hpriv, h⟩, And.right⟩

/-- **The way back.** After a change to a job user that succeeds, some requests
lead to a real or effective superuser exactly if the process was not privileged
and had the superuser saved. -/
theorem regains_iff (hmapped : rules.isMapped 0) (huid : id.uid ≠ 0)
    (h : (dropTo rules id c).1 = .ok ()) :
    (∃ requests, let c' := afterAll rules (dropTo rules id c).2 requests
      c'.realUser = 0 ∨ c'.effectiveUser = 0) ↔ ¬c.IsPrivileged ∧ c.savedUser = 0 := by
  rw [← holdsRoot_dropTo_iff huid h]
  constructor
  · rintro ⟨requests, hroot⟩
    refine Decidable.byContradiction fun hnone => ?_
    obtain ⟨hreal, heffective, _⟩ := not_holdsRoot_iff.mp (not_holdsRoot_afterAll hnone requests)
    exact hroot.elim hreal heffective
  · intro hroot
    exact ⟨[.effective 0], Or.inr (effectiveUser_after hmapped hroot)⟩

-- a process of one user with the superuser saved is taken for that user, and returns
example :
    let c : Credentials := ⟨1000, 1000, 0, 1000, 1000, 1000, []⟩
    let id : Identity := ⟨1000, 1000, none, []⟩
    (dropTo .unrestricted id c).1 = .ok () ∧
      (afterAll .unrestricted (dropTo .unrestricted id c).2 [.effective 0]).effectiveUser = 0 :=
  ⟨rfl, rfl⟩

end Credentials
end BucketMount
