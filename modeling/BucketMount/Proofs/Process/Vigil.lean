import BucketMount.Proofs.Process.Logbook

/-!
# Waiting for a process to be gone

A wait checks the process, pauses, and checks it again, until a check finds it
gone or the deadline has passed. `Vigil` says what a wait enters in a logbook
(`Processes.records_waitUntilGone`). Of these entries only the last one can find
the process gone, none of them sends a signal, and how many checks there can be
is read off the time that is left (`Vigil.found_eq`).
-/

namespace BucketMount

variable {ω : Type} {pid : Pid} {deadline t t' : Nat} {entries : Logbook} {gone : Bool}

namespace Entry

/-- The signal was sent to the process, or an attempt was made. -/
def Sends (e : Entry) (pid : Pid) (signal : Signal) : Prop :=
  ∃ answer, e.act = .signalled pid (some signal) answer

/-- What a check of a process has found, where the check comes to its end:
whether the process is gone. A process that is no child is asked after once more
before anything is found. -/
def found? (e : Entry) : Option Bool :=
  match e.act with
  | .looked _ (.ok status) => some status.hasEnded
  | .looked _ (.error .eintr) => some false
  | .looked _ (.error .echild) => none
  | .looked _ (.error _) => some true
  | .signalled _ none (.error .esrch) => some true
  | .signalled _ none _ => some false
  | _ => none

/-- The process that something was done about, if it was done about one. -/
def pid? (e : Entry) : Option Pid :=
  match e.act with
  | .signalled pid _ _ | .looked pid _ => some pid
  | _ => none

/-- The note that is made of an answer, if one is. -/
def note? (e : Entry) : Option KillNote :=
  match e.act with
  | .looked _ (.error .eintr) => none
  | .looked _ (.error .echild) => none
  | .looked pid (.error e) => some (.waitFailed pid e)
  | .signalled _ (some _) (.error .esrch) => none
  | .signalled pid (some signal) (.error e) => some (.signalFailed signal pid e)
  | _ => none

end Entry

/-! ## One check -/

/-- The entries of one check from one time to another, and what it has found. -/
inductive Check (pid : Pid) : Nat → Logbook → Nat → Bool → Prop where
  | told {t t' : Nat} (later : t ≤ t') (answer : Except Errno WaitStatus) (gone : Bool)
      (found : Entry.found? ⟨.looked pid answer, t, t'⟩ = some gone) :
      Check pid t [⟨.looked pid answer, t, t'⟩] t' gone
  /-- A process that is no child is asked after with a signal that is none. -/
  | stranger {t t₁ t' : Nat} (later : t ≤ t₁) (later' : t₁ ≤ t') (answer : Except Errno Unit)
      (gone : Bool) (found : Entry.found? ⟨.signalled pid none answer, t₁, t'⟩ = some gone) :
      Check pid t [⟨.looked pid (.error .echild), t, t₁⟩, ⟨.signalled pid none answer, t₁, t'⟩] t'
        gone

namespace Check

theorem le (h : Check pid t entries t' gone) : t ≤ t' := by
  cases h with
  | told later => exact later
  | stranger later later' => exact Nat.le_trans later later'

/-- What is found is found by the last entry. -/
theorem found_eq (h : Check pid t entries t' gone) : entries.filterMap Entry.found? = [gone] := by
  cases h with
  | told later answer gone found =>
    rw [List.filterMap_cons_some found]
    rfl
  | stranger later later' answer gone found =>
    rw [List.filterMap_cons_none rfl, List.filterMap_cons_some found]
    rfl

theorem last (h : Check pid t entries t' gone) :
    ∃ before e, entries = before ++ [e] ∧ e.found? = some gone ∧ e.ended = t' := by
  cases h with
  | told later answer gone found => exact ⟨[], _, rfl, found, rfl⟩
  | stranger later later' answer gone found => exact ⟨[_], _, rfl, found, rfl⟩

theorem not_sends (h : Check pid t entries t' gone) {e : Entry} (he : e ∈ entries) {p : Pid}
    {signal : Signal} : ¬e.Sends p signal := by
  rintro ⟨answer, hact⟩
  cases h with
  | told =>
    rcases List.mem_singleton.mp he with rfl
    cases hact
  | stranger =>
    rcases List.mem_cons.mp he with rfl | he
    · cases hact
    · rcases List.mem_singleton.mp he with rfl
      cases hact

theorem about (h : Check pid t entries t' gone) : ∀ e ∈ entries, ∀ p ∈ e.pid?, p = pid := by
  intro e he p hp
  cases h with
  | told =>
    rcases List.mem_singleton.mp he with rfl
    exact (Option.some.inj hp).symm
  | stranger =>
    rcases List.mem_cons.mp he with rfl | he
    · exact (Option.some.inj hp).symm
    · rcases List.mem_singleton.mp he with rfl
      exact (Option.some.inj hp).symm

end Check

namespace Processes

variable (os : Processes ω) (pid : Pid)

theorem records_poll : Records os.now (os.logged.poll pid) (os.poll pid)
    fun t entries t' answer => t ≤ t' ∧ entries = [⟨.looked pid answer, t, t'⟩] :=
  records_entered (os.monotone_poll pid)

theorem records_kill (signal : Option Signal) :
    Records os.now (os.logged.kill pid signal) (os.kill pid signal)
      fun t entries t' answer => t ≤ t' ∧ entries = [⟨.signalled pid signal answer, t, t'⟩] :=
  records_entered (os.monotone_kill pid signal)

/-- A check with a logbook finds what it finds without one. -/
theorem records_isGone : Records os.now (os.logged.isGone pid) (os.isGone pid)
    fun t entries t' found =>
      Check pid t entries t' found.1 ∧ found.2 = entries.filterMap Entry.note? := by
  refine .bind (os.records_poll pid) fun answer => ?_
  rcases answer with e | status
  · cases e
    case echild =>
      refine .bind (os.records_kill pid none) fun answer => ?_
      have asked {t' : Nat} {entries : Logbook} {t'' : Nat} {gone : Bool}
          (hasked : t' ≤ t'' ∧ entries = [⟨.signalled pid none answer, t', t''⟩])
          (found : Entry.found? ⟨.signalled pid none answer, t', t''⟩ = some gone) (t : Nat)
          (before : Logbook)
          (hlooked : t ≤ t' ∧ before = [⟨.looked pid (.error .echild), t, t'⟩]) :
          Check pid t (before ++ entries) t'' gone ∧
            [] = (before ++ entries).filterMap Entry.note? := by
        obtain ⟨hlater', rfl⟩ := hasked
        obtain ⟨hlater, rfl⟩ := hlooked
        exact ⟨.stranger hlater hlater' answer gone found, rfl⟩
      rcases answer with e | _
      · cases e
        all_goals
          refine .pure fun t'' t' entries hasked => ?_
          rw [List.append_nil]
          exact asked hasked rfl
      · refine .pure fun t'' t' entries hasked => ?_
        rw [List.append_nil]
        exact asked hasked rfl
    all_goals
      refine .pure fun t' t before hlooked => ?_
      obtain ⟨hlater, rfl⟩ := hlooked
      exact ⟨.told hlater _ _ rfl, rfl⟩
  · refine .pure fun t' t before hlooked => ?_
    obtain ⟨hlater, rfl⟩ := hlooked
    exact ⟨.told hlater _ _ rfl, rfl⟩

end Processes

/-! ## One check after the other -/

/-- The entries of a wait that goes on until a check finds the process gone or
the deadline has passed. -/
inductive Vigil (pid : Pid) (deadline : Nat) : Nat → Logbook → Nat → Bool → Prop where
  | gone {t : Nat} {entries : Logbook} {t' : Nat} (check : Check pid t entries t' true) :
      Vigil pid deadline t entries t' true
  | expired {t : Nat} {entries : Logbook} {t' : Nat} (check : Check pid t entries t' false)
      (late : deadline ≤ t') : Vigil pid deadline t entries t' false
  | again {t : Nat} {entries : Logbook} {t₁ t₂ : Nat} {rest : Logbook} {t' : Nat} {gone : Bool}
      (check : Check pid t entries t₁ false) (early : t₁ < deadline)
      (slept : t₁ + min pollStep (deadline - t₁) ≤ t₂) (later : Vigil pid deadline t₂ rest t' gone) :
      Vigil pid deadline t (entries ++ ⟨.paused (min pollStep (deadline - t₁)), t₁, t₂⟩ :: rest) t'
        gone

namespace Vigil

/-- A process that was not found gone was still there at the deadline. -/
theorem late (h : Vigil pid deadline t entries t' false) : deadline ≤ t' := by
  generalize hgone : false = gone at h
  induction h with
  | gone check => cases hgone
  | expired check late => exact late
  | again check early slept later ih => exact ih hgone

theorem not_sends (h : Vigil pid deadline t entries t' gone) {e : Entry} (he : e ∈ entries)
    {p : Pid} {signal : Signal} : ¬e.Sends p signal := by
  induction h with
  | gone check => exact check.not_sends he
  | expired check => exact check.not_sends he
  | again check early slept later ih =>
    rcases List.mem_append.mp he with he | he
    · exact check.not_sends he
    rcases List.mem_cons.mp he with rfl | he
    · rintro ⟨answer, hact⟩
      cases hact
    · exact ih he

/-- A wait for one process does nothing about another one. -/
theorem about (h : Vigil pid deadline t entries t' gone) : ∀ e ∈ entries, ∀ p ∈ e.pid?, p = pid := by
  induction h with
  | gone check => exact check.about
  | expired check => exact check.about
  | again check early slept later ih =>
    intro e he p hp
    rcases List.mem_append.mp he with he | he
    · exact check.about e he p hp
    rcases List.mem_cons.mp he with rfl | he
    · cases hp
    · exact ih e he p hp

/-- Every check but the last one has found the process alive, and there are not
more checks than there was time for. -/
theorem found_eq (h : Vigil pid deadline t entries t' gone) :
    ∃ n, n ≤ (deadline - t) ⌈/⌉ pollStep ∧
      entries.filterMap Entry.found? = List.replicate n false ++ [gone] := by
  induction h with
  | gone check => exact ⟨0, Nat.zero_le _, check.found_eq⟩
  | expired check => exact ⟨0, Nat.zero_le _, check.found_eq⟩
  | @again t entries t₁ t₂ rest t' gone check early slept later ih =>
    -- a round checks once and pauses for a step, unless the deadline is nearer
    obtain ⟨n, hn, hfound⟩ := ih
    have hcheck := check.le
    have htime : (deadline - t₂) ⌈/⌉ pollStep + 1 ≤ (deadline - t) ⌈/⌉ pollStep := by
      have hpos : 0 < pollStep := by decide
      exact ceilDiv_succ_le_of_pause hpos (by omega) (by omega)
    refine ⟨n + 1, by omega, ?_⟩
    rw [List.filterMap_append, check.found_eq, List.filterMap_cons_none rfl, hfound]
    rfl

/-- A wait ends with the check that decides it. -/
theorem last (h : Vigil pid deadline t entries t' gone) :
    ∃ before e, entries = before ++ [e] ∧ e.found? = some gone ∧ e.ended = t' ∧
      ∀ x ∈ before, x.found? ≠ some true := by
  obtain ⟨before, e, hsplit, hlast, hended⟩ :
      ∃ before e, entries = before ++ [e] ∧ e.found? = some gone ∧ e.ended = t' := by
    induction h with
    | gone check => exact check.last
    | expired check => exact check.last
    | @again t entries t₁ t₂ rest t' gone check early slept later ih =>
      obtain ⟨before, e, rfl, hlast, hended⟩ := ih
      exact ⟨_, e, (List.append_assoc entries (_ :: before) [e]).symm, hlast, hended⟩
  refine ⟨before, e, hsplit, hlast, hended, fun x hx hgone => ?_⟩
  obtain ⟨n, -, hfound⟩ := h.found_eq
  rw [hsplit, List.filterMap_append, List.filterMap_cons_some hlast, List.filterMap_nil,
    List.append_left_inj] at hfound
  have hmem : true ∈ before.filterMap Entry.found? := List.mem_filterMap.mpr ⟨x, hx, hgone⟩
  rw [hfound] at hmem
  cases List.eq_of_mem_replicate hmem

/-- A process that is still there was found alive by every check. -/
theorem alive (h : Vigil pid deadline t entries t' false) {e : Entry} (he : e ∈ entries) :
    e.found? ≠ some true := by
  obtain ⟨before, last, rfl, hlast, -, hbefore⟩ := h.last
  rcases List.mem_append.mp he with he | he
  · exact hbefore e he
  · rcases List.mem_singleton.mp he with rfl
    rw [hlast]
    exact nofun

theorem length_found_le (h : Vigil pid deadline t entries t' gone) :
    (entries.filterMap Entry.found?).length ≤ (deadline - t) ⌈/⌉ pollStep + 1 := by
  obtain ⟨n, hn, hfound⟩ := h.found_eq
  rw [hfound, List.length_append, List.length_replicate]
  exact Nat.succ_le_succ hn

end Vigil

namespace Processes

variable (os : Processes ω) (pid : Pid) {deadline : Nat} {w w' w'' : ω} {notes notes' : List KillNote}
  {gone : Bool}

theorem waitUntilGone_of_gone (h : os.isGone pid w = ((true, notes), w')) :
    os.waitUntilGone pid deadline w = ((true, notes), w') := by
  fun_cases os.waitUntilGone pid deadline w with
  | case1 notes' w₁ hgone =>
    cases h.symm.trans hgone
    rfl
  | case2 notes' w₁ hgone => cases h.symm.trans hgone
  | case3 notes' w₁ hgone => cases h.symm.trans hgone

theorem waitUntilGone_of_late (h : os.isGone pid w = ((false, notes), w'))
    (late : ¬os.now w' < deadline) :
    os.waitUntilGone pid deadline w = ((false, notes), w') := by
  fun_cases os.waitUntilGone pid deadline w with
  | case1 notes' w₁ hgone => cases h.symm.trans hgone
  | case2 notes' w₁ hgone hlt =>
    cases h.symm.trans hgone
    exact absurd hlt late
  | case3 notes' w₁ hgone =>
    cases h.symm.trans hgone
    rfl

theorem waitUntilGone_of_early (h : os.isGone pid w = ((false, notes), w'))
    (early : os.now w' < deadline)
    (later : os.waitUntilGone pid deadline
      (os.sleep (min pollStep (deadline - os.now w')) w') = ((gone, notes'), w'')) :
    os.waitUntilGone pid deadline w = ((gone, notes ++ notes'), w'') := by
  fun_cases os.waitUntilGone pid deadline w with
  | case1 notes' w₁ hgone => cases h.symm.trans hgone
  | case2 notes' w₁ hgone hlt gone later' w₂ hrest =>
    cases h.symm.trans hgone
    cases later.symm.trans hrest
    rfl
  | case3 notes' w₁ hgone hle =>
    cases h.symm.trans hgone
    exact absurd early hle

/-- A wait with a logbook comes to what it comes to without one. -/
theorem records_waitUntilGone (deadline : Nat) :
    Records os.now (os.logged.waitUntilGone pid deadline) (os.waitUntilGone pid deadline)
      fun t entries t' found =>
        Vigil pid deadline t entries t' found.1 ∧ found.2 = entries.filterMap Entry.note? := by
  intro log w
  fun_induction os.waitUntilGone pid deadline w generalizing log with
  | case1 w notes w₁ hgone =>
    obtain ⟨entries, hlogged, hcheck, hnotes⟩ := os.records_isGone pid log w
    simp only [hgone] at hlogged hcheck hnotes
    exact ⟨entries, os.logged.waitUntilGone_of_gone pid hlogged, .gone hcheck, hnotes⟩
  | case2 w notes w₁ hgone hlt gone later w₂ hrest ih =>
    obtain ⟨entries, hlogged, hcheck, hnotes⟩ := os.records_isGone pid log w
    simp only [hgone] at hlogged hcheck hnotes
    obtain ⟨rest, hagain, hvigil, hlater⟩ :=
      ih (os.logged.sleep (min pollStep (deadline - os.now w₁)) (log ++ entries, w₁)).1
    simp only [hrest] at hagain hvigil hlater
    refine ⟨_, ?_, .again hcheck hlt (os.now_sleep _ w₁) hvigil, ?_⟩
    · rw [os.logged.waitUntilGone_of_early pid hlogged hlt hagain]
      simp [logged]
    · rw [hnotes, hlater, List.filterMap_append, List.filterMap_cons_none rfl]
  | case3 w notes w₁ hgone hle =>
    obtain ⟨entries, hlogged, hcheck, hnotes⟩ := os.records_isGone pid log w
    simp only [hgone] at hlogged hcheck hnotes
    exact ⟨entries, os.logged.waitUntilGone_of_late pid hlogged hle,
      .expired hcheck (Nat.le_of_not_lt hle), hnotes⟩

end Processes
end BucketMount
