import BucketMount.Proofs.Dictation
import BucketMount.Proofs.Process.Escalation
import BucketMount.Proofs.Process.Instant

/-!
# How long a process is waited for

A wait for a process to be gone computes a deadline, and after each check that
has found the process alive it computes how much time is left. Here it does so
with instants of 64 bits (`Processes.waitUntilGone?`), and comes to the same as
with numbers without a limit, for every time that can be set and every clock
that has not run for an age (`Processes.waitUntilGone?_eq`).

There is one check for each step of the time at most, and one more
(`Processes.waitUntilGone_bounded`): the last one is made at the deadline or
later, so that a process that ends in time is not missed.
-/

namespace BucketMount

variable {ω : Type}

namespace Processes

/-! ## With instants -/

section Instants

variable (os : Processes ω) (pid : Pid)

/-- A wait until an instant, which is broken off where a time cannot be
computed. -/
def waitUntil? (deadline : Instant) (w : ω) : Option ((Bool × List KillNote) × ω) :=
  match _hgone : os.isGone pid w with
  | ((true, notes), w') => some ((true, notes), w')
  | ((false, notes), w') =>
    if _h : (Instant.ofTime (os.now w')).Before deadline then
      match _hleft : deadline.since? (Instant.ofTime (os.now w')) with
      | none => none
      | some left =>
        (waitUntil? deadline (os.sleep (min pollStep left) w')).map
          fun ((gone, later), w'') => ((gone, notes ++ later), w'')
    else some ((false, notes), w')
termination_by (deadline.time - os.now w).toNat
decreasing_by
  have hlater := os.monotone_isGone pid w
  rw [_hgone] at hlater
  have hslept := os.now_sleep (min pollStep left) w'
  have hbefore := Instant.before_iff.mp _h
  have hspan := Instant.time_of_since? _hleft
  rw [Instant.time_ofTime] at hbefore hspan
  have hstep : (0 : Nat) < pollStep := by decide
  simp only at hlater
  omega

/-- A wait for a length of time, from now on. -/
def waitUntilGone? (budget : Duration) (w : ω) : Option ((Bool × List KillNote) × ω) :=
  ((Instant.ofTime (os.now w)).add? budget).bind fun deadline => os.waitUntil? pid deadline w

/-- Until an instant that fits, the time that is left can always be computed. -/
theorem waitUntil?_eq {deadline : Instant} {t : Nat} (fits : deadline.seconds < 2 ^ 63)
    (time : deadline.time = t) (w : ω) :
    os.waitUntil? pid deadline w = some (os.waitUntilGone pid t w) := by
  have hleft {n : Nat} (hn : n < t) : deadline.since? (Instant.ofTime n) = some (t - n) :=
    Instant.since?_ofTime fits time (Nat.le_of_lt hn)
  fun_induction os.waitUntil? pid deadline w with
  | case1 w notes w' hgone => rw [os.waitUntilGone_of_gone pid hgone]
  | case2 w notes w' hgone hbefore hnone =>
    rw [hleft ((Instant.ofTime_before_iff time).mp hbefore)] at hnone
    cases hnone
  | case3 w notes w' hgone hbefore left hsome ih =>
    have hearly := (Instant.ofTime_before_iff time).mp hbefore
    cases (hleft hearly).symm.trans hsome
    rw [ih, os.waitUntilGone_of_early pid hgone hearly rfl]
    rfl
  | case4 w notes w' hgone hbefore =>
    rw [Instant.ofTime_before_iff time] at hbefore
    rw [os.waitUntilGone_of_late pid hgone hbefore]

/-- Neither the deadline nor the time that is left is out of range, unless the
clock has run for an age or the time is set to one. -/
theorem waitUntilGone?_eq {budget : Duration} {w : ω}
    (fits : os.now w + budget < 2 ^ 63 * 10 ^ 9) :
    os.waitUntilGone? pid budget w = some (os.waitUntilGone pid (os.now w + budget) w) := by
  obtain ⟨deadline, hdeadline, hseconds, htime⟩ := Instant.exists_deadline fits
  exact Option.bind_eq_some_iff.mpr
    ⟨deadline, hdeadline, os.waitUntil?_eq pid hseconds htime w⟩

end Instants

/-- The clock moves only while the program sleeps. -/
structure Prompt (os : Processes ω) : Prop where
  kill : ∀ pid signal w, os.now (os.kill pid signal w).2 = os.now w
  poll : ∀ pid w, os.now (os.poll pid w).2 = os.now w

end Processes

/-! ## The last check -/

variable {pid : Pid} {deadline t t' : Nat} {entries : Logbook} {gone : Bool}

/-- Nothing but a pause takes time. -/
def Entry.Prompt (e : Entry) : Prop := (∃ d, e.act = .paused d) ∨ e.ended = e.began

theorem Processes.Prompt.waitUntilGone {os : Processes ω} (h : os.Prompt) (pid : Pid)
    (deadline : Nat) :
    Keeps (fun s => ∀ e ∈ s.1, Entry.Prompt e) (os.logged.waitUntilGone pid deadline) := by
  have snoc {log : Logbook} {e : Entry} (hlog : ∀ x ∈ log, Entry.Prompt x) (he : e.Prompt) :
      ∀ x ∈ log ++ [e], Entry.Prompt x :=
    List.forall_mem_append.mpr ⟨hlog, List.forall_mem_singleton.mpr he⟩
  have handling : os.logged.Handling pid (fun s => ∀ e ∈ s.1, Entry.Prompt e)
      fun s => ∀ e ∈ s.1, Entry.Prompt e :=
    { sleep := fun d _ hs => snoc hs (.inl ⟨d, rfl⟩)
      kill := fun signal s hs => snoc hs (.inr (h.kill pid signal s.2))
      poll := fun s hs => by
        have hpoll := snoc (e := ⟨.looked pid (os.poll pid s.2).1, _, _⟩) hs (.inr (h.poll pid s.2))
        dsimp only
        split <;> exact hpoll
      letGo := fun _ hs => hs }
  intro s hs
  have hwait := handling.waitUntilGone deadline s hs
  dsimp only at hwait
  split at hwait <;> exact hwait

/-- A check takes no time if what it does takes none. -/
theorem Check.eq_of_prompt (h : Check pid t entries t' gone) (prompt : ∀ e ∈ entries, e.Prompt) :
    t' = t := by
  -- what a check does is no pause
  have still {act : Act} {began ended : Nat} (he : ⟨act, began, ended⟩ ∈ entries)
      (hact : ∀ d, act ≠ .paused d) : ended = began :=
    (prompt _ he).resolve_left fun ⟨d, hd⟩ => hact d hd
  cases h with
  | told => exact still List.mem_cons_self nofun
  | stranger =>
    have hlook := still List.mem_cons_self nofun
    have hask := still (List.mem_cons_of_mem _ List.mem_cons_self) nofun
    exact hask.trans hlook

theorem Check.not_found_of_alive (h : Check pid t entries t' false) :
    ∀ e ∈ entries, e.found? ≠ some true := by
  intro e he hgone
  have hmem : true ∈ entries.filterMap Entry.found? := List.mem_filterMap.mpr ⟨e, he, hgone⟩
  rw [h.found_eq] at hmem
  cases List.mem_singleton.mp hmem

namespace Vigil

/-- A wait ends with a whole check, and none before it has found the process
gone. -/
theorem exists_check (h : Vigil pid deadline t entries t' gone) :
    ∃ before check t₁, entries = before ++ check ∧ Check pid t₁ check t' gone ∧
      ∀ e ∈ before, e.found? ≠ some true := by
  induction h with
  | gone check | expired check => exact ⟨[], _, _, rfl, check, List.forall_mem_nil _⟩
  | again check early slept later ih =>
    obtain ⟨before, last, t₁, rfl, hlast, hbefore⟩ := ih
    refine ⟨_, last, t₁, (List.append_assoc _ (_ :: before) last).symm, hlast, ?_⟩
    exact List.forall_mem_append.mpr
      ⟨check.not_found_of_alive, List.forall_mem_cons.mpr ⟨nofun, hbefore⟩⟩

theorem gone_iff (h : Vigil pid deadline t entries t' gone) :
    gone ↔ ∃ e ∈ entries, e.found? = some true := by
  rw [← h.exists_findsGone_iff]
  exact exists_congr fun e => and_congr_right h.findsGone_iff

end Vigil

/-! ## The bounds of a wait -/

theorem ceilDiv_pollStep (ms : Nat) : milliseconds ms ⌈/⌉ pollStep = ms ⌈/⌉ 10 := by
  have h : (ms * 1000000 + 10 * 1000000 - 1) / (10 * 1000000) = (ms + 10 - 1) / 10 := by omega
  rw [Nat.ceilDiv_eq_add_pred_div, Nat.ceilDiv_eq_add_pred_div]
  exact h

/-- All that is done while a process is waited for, for so many milliseconds up
to the deadline, and whether it was found gone. -/
structure Watched (pid : Pid) (ms deadline : Nat) (watch : Logbook) (gone : Bool) : Prop where
  /-- There is a check for each step of the time at most, and one more. -/
  checks_le : (watch.filterMap Entry.found?).length ≤ ms ⌈/⌉ 10 + 1
  /-- Without any time there is one check. -/
  checks_eq_one : ms = 0 → (watch.filterMap Entry.found?).length = 1
  gone_iff : gone ↔ ∃ e ∈ watch, e.found? = some true
  /-- It ends with a check, at the deadline or later if the process is not found
  gone, and no other check has found it gone. -/
  last : ∃ before check t t', watch = before ++ check ∧ Check pid t check t' gone ∧
    (∀ e ∈ before, e.found? ≠ some true) ∧ (gone = false → deadline ≤ t)

theorem Vigil.watched {ms start : Nat}
    (h : Vigil pid (start + milliseconds ms) start entries t' gone)
    (prompt : ∀ e ∈ entries, e.Prompt) : Watched pid ms (start + milliseconds ms) entries gone := by
  obtain ⟨n, hn, hfound⟩ := h.found_eq
  rw [Nat.add_sub_cancel_left, ceilDiv_pollStep] at hn
  have hlength : (entries.filterMap Entry.found?).length = n + 1 := by
    rw [hfound, List.length_append, List.length_replicate, List.length_singleton]
  exact
    { checks_le := hlength.trans_le (Nat.succ_le_succ hn)
      checks_eq_one := by
        rintro rfl
        rw [hlength, Nat.le_zero.mp hn]
      gone_iff := h.gone_iff
      last := by
        obtain ⟨before, check, t, rfl, hcheck, hbefore⟩ := h.exists_check
        refine ⟨before, check, t, t', rfl, hcheck, hbefore, ?_⟩
        rintro rfl
        rw [← hcheck.eq_of_prompt fun e he => prompt e (List.mem_append_right _ he)]
        exact h.late }

namespace Processes

variable (os : Processes ω) (pid : Pid)

/-- A wait whose deadline is so many milliseconds from now. -/
theorem exists_watched (prompt : os.Prompt) (ms : Nat) (w : ω) :
    let deadline := os.now w + milliseconds ms
    let wait := os.waitUntilGone pid deadline w
    ∃ watch, os.logged.waitUntilGone pid deadline ([], w) = (wait.1, watch, wait.2) ∧
      Watched pid ms deadline watch wait.1.1 := by
  obtain ⟨watch, hlogged, hvigil, -⟩ :=
    os.records_waitUntilGone pid (os.now w + milliseconds ms) [] w
  rw [List.nil_append] at hlogged
  have hprompt := prompt.waitUntilGone pid (os.now w + milliseconds ms) ([], w)
    (List.forall_mem_nil _)
  rw [hlogged] at hprompt
  exact ⟨watch, hlogged, hvigil.watched hprompt⟩

/-- **A wait for a process to be gone is bounded.** Let the clock move only while
the program sleeps, and let it have run for less than 2 ^ 62 seconds. A wait for
any number of milliseconds that fits into 64 bits then never computes a time
that is out of range. It checks the process at most once for each ten of them
and once more, finds it gone exactly if a check does, with which it ends, and
gives up only after a check at the deadline or later. -/
theorem waitUntilGone_bounded {ms : Nat} {w : ω} (prompt : os.Prompt) (fits : ms < 2 ^ 64)
    (start : os.now w < 2 ^ 62 * 10 ^ 9) :
    let deadline := os.now w + milliseconds ms
    let wait := os.waitUntilGone pid deadline w
    os.waitUntilGone? pid (milliseconds ms) w = some wait ∧
    ∃ watch, os.logged.waitUntilGone pid deadline ([], w) = (wait.1, watch, wait.2) ∧
      Watched pid ms deadline watch wait.1.1 := by
  refine ⟨os.waitUntilGone?_eq pid ?_, os.exists_watched pid prompt ms w⟩
  -- the longest wait from the latest start has a deadline that fits
  unfold milliseconds
  omega

theorem prompt_dictation : Dictation.kernel.Prompt where
  kill _ _ _ := rfl
  poll _ := Dictation.time_status

/-- The longest wait, at the latest start, for a child that is stopped before it
ends. -/
theorem waitUntilGone_bounded_longest :
    let os := Dictation.kernel.toProcesses
    let w : Dictation := ⟨[], [.running, .stopped .stop, .exited 3], [], [], [], 2 ^ 62 * 10 ^ 9 - 1⟩
    let ms := 2 ^ 64 - 1
    os.Prompt ∧ ms < 2 ^ 64 ∧ os.now w < 2 ^ 62 * 10 ^ 9 ∧
      (os.waitUntilGone? 7 (milliseconds ms) w).isSome ∧
      ∃ watch gone, Watched 7 ms (os.now w + milliseconds ms) watch gone := by
  intro os w ms
  have fits : ms < 2 ^ 64 := by decide
  have start : os.now w < 2 ^ 62 * 10 ^ 9 := by decide
  obtain ⟨hwait, watch, -, hwatched⟩ := os.waitUntilGone_bounded 7 prompt_dictation fits start
  exact ⟨prompt_dictation, fits, start, by rw [hwait]; rfl, watch, _, hwatched⟩

end Processes
end BucketMount
