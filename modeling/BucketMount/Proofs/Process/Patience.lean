import BucketMount.Proofs.Dictation
import BucketMount.Proofs.Process.Logbook

/-!
# Waiting for a helper to be ready

A wait asks the probe, asks after the helper, pauses, and asks again. `Patience`
says what a wait enters in a logbook (`Processes.records_awaitReady`). How often
the probe can be asked is read off the time that is left (`Patience.probes_eq`),
and how the wait ends off the last entry alone (`Patience.eq_of_last`).
-/

namespace BucketMount

variable {ω : Type} {pid : Pid} {interval timeout : Duration} {deadline t t' : Nat}
variable {Lasts : Nat → Nat → Prop} {course : Logbook} {result : Except MountError Readiness}

namespace Entry

def probe? (e : Entry) : Option Bool :=
  match e.act with
  | .probed answer => some answer
  | _ => none

/-- What an entry decides of the wait, if it decides anything. -/
def decided? (e : Entry) (pid : Pid) : Option (Except MountError Readiness) :=
  match e.act with
  | .probed true => some (.ok .ready)
  | .looked _ answer => Readiness.decided pid answer
  | _ => none

end Entry

/-! ## What an answer about the helper decides -/

namespace Readiness

variable {answer : Except Errno WaitStatus}

theorem decided_eq_exitedEarly_iff {status : WaitStatus} :
    decided pid answer = some (.ok (.exitedEarly status)) ↔
      answer = .ok status ∧ status.hasEnded := by
  rcases answer with e | status'
  · cases e <;> simp [decided]
  · by_cases h : status'.hasEnded
    · simp only [decided, if_pos h, Option.some.injEq, Except.ok.injEq, exitedEarly.injEq]
      exact ⟨fun heq => ⟨heq, heq ▸ h⟩, And.left⟩
    · simp only [decided, if_neg h, reduceCtorEq, Except.ok.injEq, false_iff, not_and]
      rintro rfl
      exact h

theorem decided_eq_error_iff {e : MountError} :
    decided pid answer = some (.error e) ↔
      ∃ errno, answer = .error errno ∧ errno ≠ .eintr ∧ e = .spawn (.wait pid errno) := by
  rcases answer with errno | status
  · by_cases h : errno = .eintr
    · simp [decided, h]
    · simp [decided, h, eq_comm]
  · by_cases h : status.hasEnded <;> simp [decided, h]

theorem decided_getD_ne_ready : (decided pid answer).getD (.ok .timedOut) ≠ .ok .ready := by
  rcases hdecided : decided pid answer with _ | result
  · exact nofun
  · rintro rfl
    cases Processes.decided_eq_some hdecided

theorem decided_getD_eq_timedOut_iff :
    (decided pid answer).getD (.ok .timedOut) = .ok .timedOut ↔ leavesOpen answer := by
  rw [← @Processes.decided_eq_none_iff pid]
  rcases hdecided : decided pid answer with _ | result
  · simp
  · simp only [Option.getD_some, reduceCtorEq, iff_false]
    rintro rfl
    cases Processes.decided_eq_some hdecided

end Readiness

/-! ## One round after the other -/

/-- The entries of a wait for a helper, from one time to another, and how it
ends. `Lasts` is what is known of the times before and after a question. -/
inductive Patience (pid : Pid) (interval : Duration) (deadline : Nat) (Lasts : Nat → Nat → Prop) :
    Nat → Logbook → Nat → Except MountError Readiness → Prop where
  | ready {t t' : Nat} (asked : Lasts t t') :
      Patience pid interval deadline Lasts t [⟨.probed true, t, t'⟩] t' (.ok .ready)
  | settled {t t₁ t' : Nat} {answer : Except Errno WaitStatus}
      {result : Except MountError Readiness} (asked : Lasts t t₁) (looked : Lasts t₁ t')
      (settled : Readiness.decided pid answer = some result) :
      Patience pid interval deadline Lasts t
        [⟨.probed false, t, t₁⟩, ⟨.looked pid answer, t₁, t'⟩] t' result
  | timedOut {t t₁ t' : Nat} {answer : Except Errno WaitStatus} (asked : Lasts t t₁)
      (looked : Lasts t₁ t') (unsettled : Readiness.decided pid answer = none)
      (late : deadline ≤ t') :
      Patience pid interval deadline Lasts t
        [⟨.probed false, t, t₁⟩, ⟨.looked pid answer, t₁, t'⟩] t' (.ok .timedOut)
  | again {t t₁ t₂ t₃ t' : Nat} {answer : Except Errno WaitStatus} {rest : Logbook}
      {result : Except MountError Readiness} (asked : Lasts t t₁) (looked : Lasts t₁ t₂)
      (unsettled : Readiness.decided pid answer = none) (early : t₂ < deadline)
      (slept : t₂ + max 1 (min interval (deadline - t₂)) ≤ t₃)
      (later : Patience pid interval deadline Lasts t₃ rest t' result) :
      Patience pid interval deadline Lasts t
        (⟨.probed false, t, t₁⟩ :: ⟨.looked pid answer, t₁, t₂⟩ ::
          ⟨.paused (max 1 (min interval (deadline - t₂))), t₂, t₃⟩ :: rest) t' result

namespace Patience

/-- Every answer of the probe but the last one is no, and the probe is not asked
more often than there is time for. -/
theorem probes_eq (h : Patience pid interval deadline Lasts t course t' result)
    (forward : ∀ t t', Lasts t t' → t ≤ t') (pos : 0 < interval) :
    ∃ n last, n ≤ (deadline - t) ⌈/⌉ interval ∧
      course.filterMap Entry.probe? = List.replicate n false ++ [last] := by
  induction h with
  | ready asked => exact ⟨0, true, Nat.zero_le _, rfl⟩
  | settled asked looked settled => exact ⟨0, false, Nat.zero_le _, rfl⟩
  | timedOut asked looked unsettled late => exact ⟨0, false, Nat.zero_le _, rfl⟩
  | @again t t₁ t₂ t₃ t' answer rest result asked looked unsettled early slept later ih =>
    -- a round asks once and pauses for an interval, unless the deadline is nearer
    obtain ⟨n, last, hn, hprobes⟩ := ih
    have hasked := forward t t₁ asked
    have hlooked := forward t₁ t₂ looked
    have htime : (deadline - t₃) ⌈/⌉ interval + 1 ≤ (deadline - t) ⌈/⌉ interval :=
      ceilDiv_succ_le_of_pause pos (by omega) (by omega)
    exact ⟨n + 1, last, by omega, congrArg (false :: ·) hprobes⟩

/-- A wait ends with a probe that agrees, or with an answer about the helper that
decides or comes when there is no time left. -/
theorem ending (h : Patience pid interval deadline Lasts t course t' result) :
    (∃ before probe, course = before ++ [probe] ∧ probe.act = .probed true ∧ result = .ok .ready) ∨
    ∃ before probe look answer, course = before ++ [probe, look] ∧ probe.act = .probed false ∧
      look.act = .looked pid answer ∧
      result = (Readiness.decided pid answer).getD (.ok .timedOut) ∧
      Lasts probe.began probe.ended ∧ Lasts look.began look.ended ∧ probe.ended = look.began ∧
      (Readiness.decided pid answer = none → deadline ≤ look.ended) := by
  induction h with
  | ready asked => exact Or.inl ⟨[], _, rfl, rfl, rfl⟩
  | settled asked looked settled =>
    refine Or.inr ⟨[], _, _, _, rfl, rfl, rfl, ?_, asked, looked, rfl, ?_⟩
    · rw [settled, Option.getD_some]
    · rw [settled]
      exact nofun
  | timedOut asked looked unsettled late =>
    refine Or.inr ⟨[], _, _, _, rfl, rfl, rfl, ?_, asked, looked, rfl, fun _ => late⟩
    rw [unsettled, Option.getD_none]
  | again asked looked unsettled early slept later ih =>
    rcases ih with ⟨before, probe, rfl, hend⟩ | ⟨before, probe, look, answer, rfl, hend⟩
    · exact Or.inl ⟨_ :: _ :: _ :: before, probe, rfl, hend⟩
    · exact Or.inr ⟨_ :: _ :: _ :: before, probe, look, answer, rfl, hend⟩

theorem exists_looked (h : Patience pid interval deadline Lasts t course t' result)
    (unready : result ≠ .ok .ready) :
    ∃ before probe look answer, course = before ++ [probe, look] ∧ probe.act = .probed false ∧
      look.act = .looked pid answer ∧
      result = (Readiness.decided pid answer).getD (.ok .timedOut) ∧
      Lasts probe.began probe.ended ∧ Lasts look.began look.ended ∧ probe.ended = look.began ∧
      (Readiness.decided pid answer = none → deadline ≤ look.ended) := by
  rcases h.ending with ⟨-, -, -, -, hready⟩ | hlooked
  · exact absurd hready unready
  · exact hlooked

theorem ne_nil (h : Patience pid interval deadline Lasts t course t' result) : course ≠ [] := by
  cases h <;> exact List.cons_ne_nil _ _

/-- Nothing is decided before the last entry. -/
theorem undecided (h : Patience pid interval deadline Lasts t course t' result) :
    ∀ e ∈ course.dropLast, e.decided? pid = none := by
  induction h with
  | ready asked => exact List.forall_mem_nil _
  | settled asked looked settled =>
    intro e he
    rcases List.mem_singleton.mp he with rfl
    rfl
  | timedOut asked looked unsettled late =>
    intro e he
    rcases List.mem_singleton.mp he with rfl
    rfl
  | again asked looked unsettled early slept later ih =>
    intro e he
    rw [List.dropLast_cons_of_ne_nil (List.cons_ne_nil _ _),
      List.dropLast_cons_of_ne_nil (List.cons_ne_nil _ _),
      List.dropLast_cons_of_ne_nil later.ne_nil] at he
    simp only [List.mem_cons] at he
    rcases he with rfl | rfl | rfl | he
    · rfl
    · exact unsettled
    · rfl
    · exact ih e he

/-- The last entry alone tells how the wait ends. -/
theorem eq_of_last (h : Patience pid interval deadline Lasts t course t' result) {before : Logbook}
    {e : Entry} (hlast : course = before ++ [e]) :
    result = (e.decided? pid).getD (.ok .timedOut) := by
  rcases h.ending with ⟨before', probe, rfl, hact, hresult⟩ |
    ⟨before', probe, look, answer, rfl, -, hact, hresult, -⟩
  · obtain ⟨-, hsame⟩ := List.append_inj' hlast rfl
    cases hsame
    rw [hresult, Entry.decided?, hact]
    rfl
  · rw [← List.singleton_append, ← List.append_assoc] at hlast
    obtain ⟨-, hsame⟩ := List.append_inj' hlast rfl
    cases hsame
    rw [hresult, Entry.decided?, hact]

theorem eq_of_probed (h : Patience pid interval deadline Lasts t course t' result)
    {before : Logbook} {probe : Entry} (hlast : course = before ++ [probe])
    (hact : probe.act = .probed true) : result = .ok .ready := by
  rw [h.eq_of_last hlast, Entry.decided?, hact]
  rfl

theorem eq_of_looked (h : Patience pid interval deadline Lasts t course t' result)
    {before : Logbook} {probe look : Entry} {answer : Except Errno WaitStatus}
    (hlast : course = before ++ [probe, look]) (hact : look.act = .looked pid answer) :
    result = (Readiness.decided pid answer).getD (.ok .timedOut) := by
  rw [h.eq_of_last (hlast.trans (List.append_cons before probe [look])), Entry.decided?, hact]

end Patience

/-! ## Round by round -/

namespace Processes

variable (os : Processes ω) (pid : Pid) (interval : Duration) (deadline : Nat)
  (probe : Probe os.toClock) {w w₁ w₂ : ω} {answer : Except Errno WaitStatus}

theorem awaitReady_of_ready (asked : probe.ask w = (true, w₁)) :
    os.awaitReady pid interval deadline probe w = (.ok .ready, w₁) := by
  fun_cases os.awaitReady pid interval deadline probe w with
  | case1 w₁' hprobe =>
    cases asked.symm.trans hprobe
    rfl
  | case2 w₁' hprobe => cases asked.symm.trans hprobe
  | case3 w₁' hprobe => cases asked.symm.trans hprobe
  | case4 w₁' hprobe => cases asked.symm.trans hprobe

theorem awaitReady_of_settled (asked : probe.ask w = (false, w₁))
    (looked : os.poll pid w₁ = (answer, w₂)) {result : Except MountError Readiness}
    (settled : Readiness.decided pid answer = some result) :
    os.awaitReady pid interval deadline probe w = (result, w₂) := by
  fun_cases os.awaitReady pid interval deadline probe w with
  | case1 w₁' hprobe => cases asked.symm.trans hprobe
  | case2 w₁' hprobe answer' w₂' hpoll result' hdecided =>
    cases asked.symm.trans hprobe
    cases looked.symm.trans hpoll
    cases settled.symm.trans hdecided
    rfl
  | case3 w₁' hprobe answer' w₂' hpoll hdecided =>
    cases asked.symm.trans hprobe
    cases looked.symm.trans hpoll
    cases settled.symm.trans hdecided
  | case4 w₁' hprobe answer' w₂' hpoll hdecided =>
    cases asked.symm.trans hprobe
    cases looked.symm.trans hpoll
    cases settled.symm.trans hdecided

theorem awaitReady_of_unsettled (asked : probe.ask w = (false, w₁))
    (looked : os.poll pid w₁ = (answer, w₂)) (unsettled : Readiness.decided pid answer = none) :
    os.awaitReady pid interval deadline probe w =
      if os.now w₂ < deadline then
        os.awaitReady pid interval deadline probe
          (os.sleep (max 1 (min interval (deadline - os.now w₂))) w₂)
      else (.ok .timedOut, w₂) := by
  fun_cases os.awaitReady pid interval deadline probe w with
  | case1 w₁' hprobe => cases asked.symm.trans hprobe
  | case2 w₁' hprobe answer' w₂' hpoll result' hdecided =>
    cases asked.symm.trans hprobe
    cases looked.symm.trans hpoll
    cases unsettled.symm.trans hdecided
  | case3 w₁' hprobe answer' w₂' hpoll hdecided hlt =>
    cases asked.symm.trans hprobe
    cases looked.symm.trans hpoll
    rw [if_pos hlt]
  | case4 w₁' hprobe answer' w₂' hpoll hdecided hle =>
    cases asked.symm.trans hprobe
    cases looked.symm.trans hpoll
    rw [if_neg hle]

/-- A wait with a logbook ends as it does without one. -/
theorem records_awaitReady (Lasts : Nat → Nat → Prop)
    (lasts_ask : ∀ w, Lasts (os.now w) (os.now (probe.ask w).2))
    (lasts_poll : ∀ w, Lasts (os.now w) (os.now (os.poll pid w).2)) :
    Records os.now (os.logged.awaitReady pid interval deadline probe.logged)
      (os.awaitReady pid interval deadline probe)
      fun t course t' result => Patience pid interval deadline Lasts t course t' result := by
  intro log w
  -- every round asks, and most look after the helper too
  have ask {w w₁ : ω} {answer : Bool} (h : probe.ask w = (answer, w₁)) :
      Lasts (os.now w) (os.now w₁) := by
    have hlasts := lasts_ask w
    rwa [h] at hlasts
  have poll {w w₁ : ω} {answer : Except Errno WaitStatus} (h : os.poll pid w = (answer, w₁)) :
      Lasts (os.now w) (os.now w₁) := by
    have hlasts := lasts_poll w
    rwa [h] at hlasts
  fun_induction os.awaitReady pid interval deadline probe w generalizing log with
  | case1 w w₁ hprobe =>
    exact ⟨_, os.logged.awaitReady_of_ready pid interval deadline probe.logged
      (probe.logged_ask hprobe log), .ready (ask hprobe)⟩
  | case2 w w₁ hprobe answer w₂ hpoll result hdecided =>
    refine ⟨_, ?_, .settled (ask hprobe) (poll hpoll) hdecided⟩
    rw [os.logged.awaitReady_of_settled pid interval deadline probe.logged
      (probe.logged_ask hprobe log) (os.logged_poll hpoll _) hdecided, List.append_assoc]
    rfl
  | case3 w w₁ hprobe answer w₂ hpoll hdecided hlt ih =>
    obtain ⟨rest, hagain, hrest⟩ := ih (os.logged.sleep
      (max 1 (min interval (deadline - os.now w₂)))
      (log ++ [⟨.probed false, os.now w, os.now w₁⟩] ++
        [⟨.looked pid answer, os.now w₁, os.now w₂⟩], w₂)).1
    refine ⟨_, ?_, .again (ask hprobe) (poll hpoll) hdecided hlt (os.now_sleep _ w₂) hrest⟩
    rw [os.logged.awaitReady_of_unsettled pid interval deadline probe.logged
      (probe.logged_ask hprobe log) (os.logged_poll hpoll _) hdecided]
    refine (if_pos hlt).trans (hagain.trans ?_)
    simp [logged]
  | case4 w w₁ hprobe answer w₂ hpoll hdecided hle =>
    refine ⟨_, ?_, .timedOut (ask hprobe) (poll hpoll) hdecided (Nat.le_of_not_lt hle)⟩
    rw [os.logged.awaitReady_of_unsettled pid interval deadline probe.logged
      (probe.logged_ask hprobe log) (os.logged_poll hpoll _) hdecided, List.append_assoc]
    exact if_neg hle

/-- The clock moves only while the program sleeps. -/
def MovesOnlyInSleep : Prop :=
  (∀ w, os.now (probe.ask w).2 = os.now w) ∧ ∀ w, os.now (os.poll pid w).2 = os.now w

variable {probe} in
/-- A mountpoint that is up from the deadline on is not missed. -/
theorem awaitReady_ne_timedOut (still : os.MovesOnlyInSleep pid probe)
    (up : ∀ w, deadline ≤ os.now w → (probe.ask w).1 = true) (w : ω) :
    (os.awaitReady pid interval deadline probe w).1 ≠ .ok .timedOut := by
  fun_induction os.awaitReady pid interval deadline probe w with
  | case1 w w₁ hprobe =>
    intro hready
    cases hready
  | case2 w w₁ hprobe answer w₂ hpoll result hdecided =>
    rintro rfl
    cases decided_eq_some hdecided
  | case3 w w₁ hprobe answer w₂ hpoll hdecided hlt ih => exact ih
  | case4 w w₁ hprobe answer w₂ hpoll hdecided hle =>
    have hask := still.1 w
    have hlook := still.2 w₁
    simp only [hprobe] at hask
    simp only [hpoll] at hlook
    have hyes := up w (by omega)
    rw [hprobe] at hyes
    cases hyes

end Processes

/-! ## What the outcome may be relied on for -/

/-- All that is done while a helper is waited for, and how the wait ends, where
`still` says that no time passes but in pauses. -/
structure Awaits (pid : Pid) (interval timeout : Duration) (start : Nat) (still : Prop)
    (course : Logbook) (result : Except MountError Readiness) : Prop where
  /-- The probe is not asked more often than there is time for, and its answer is
  no before the last time. -/
  probes_eq : ∃ n last, n ≤ timeout ⌈/⌉ interval ∧
    course.filterMap Entry.probe? = List.replicate n false ++ [last]
  /-- Before the last entry no probe has agreed and the helper was not seen to end. -/
  open_until : ∀ e ∈ course.dropLast,
    e.act ≠ .probed true ∧ ∀ answer, e.act = .looked pid answer → leavesOpen answer
  /-- A probe that agrees ends the wait, and the helper is not asked after again. -/
  ready_iff : result = .ok .ready ↔
    ∃ before probe, course = before ++ [probe] ∧ probe.act = .probed true
  exitedEarly_iff : ∀ status, result = .ok (.exitedEarly status) ↔
    ∃ before probe look, course = before ++ [probe, look] ∧ probe.act = .probed false ∧
      look.act = .looked pid (.ok status) ∧ status.hasEnded
  error_iff : ∀ e, result = .error e ↔
    ∃ before probe look errno, course = before ++ [probe, look] ∧ probe.act = .probed false ∧
      look.act = .looked pid (.error errno) ∧ errno ≠ .eintr ∧ e = .spawn (.wait pid errno)
  /-- The time has passed, the last probe has not agreed, and nothing has shown
  that the helper has ended. Unless the questions took time, even the last probe
  was asked at the deadline or later. -/
  timedOut_iff : result = .ok .timedOut ↔
    ∃ before probe look answer, course = before ++ [probe, look] ∧ probe.act = .probed false ∧
      look.act = .looked pid answer ∧ leavesOpen answer ∧ start + timeout ≤ look.ended ∧
      (still → start + timeout ≤ probe.began)

namespace Patience

variable {start : Nat}

theorem awaits {still : Prop} (h : Patience pid interval (start + timeout)
      (fun t t' => t ≤ t' ∧ (still → t' = t)) start course t' result) (pos : 0 < interval) :
    Awaits pid interval timeout start still course result where
  probes_eq := by
    have hprobes := h.probes_eq (fun t t' => And.left) pos
    rwa [Nat.add_sub_cancel_left] at hprobes
  open_until e he := by
    have hopen := h.undecided e he
    constructor
    · intro hact
      rw [Entry.decided?, hact] at hopen
      cases hopen
    · intro answer hact
      rw [Entry.decided?, hact] at hopen
      exact Processes.decided_eq_none_iff.mp hopen
  ready_iff := by
    constructor
    · rintro rfl
      rcases h.ending with ⟨before, probe, hcourse, hact, -⟩ |
        ⟨before, probe, look, answer, -, -, -, hready, -⟩
      · exact ⟨before, probe, hcourse, hact⟩
      · exact absurd hready.symm Readiness.decided_getD_ne_ready
    · rintro ⟨before, probe, hcourse, hact⟩
      exact h.eq_of_probed hcourse hact
  exitedEarly_iff status := by
    constructor
    · rintro rfl
      obtain ⟨before, probe, look, answer, hcourse, hasked, hlooked, hresult, -⟩ :=
        h.exists_looked (by simp)
      rcases Option.getD_eq_iff.mp hresult.symm with hsettled | ⟨-, hlate⟩
      · obtain ⟨rfl, hended⟩ := Readiness.decided_eq_exitedEarly_iff.mp hsettled
        exact ⟨before, probe, look, hcourse, hasked, hlooked, hended⟩
      · cases hlate
    · rintro ⟨before, probe, look, hcourse, -, hlooked, hended⟩
      rw [h.eq_of_looked hcourse hlooked,
        Readiness.decided_eq_exitedEarly_iff.mpr ⟨rfl, hended⟩, Option.getD_some]
  error_iff e := by
    constructor
    · rintro rfl
      obtain ⟨before, probe, look, answer, hcourse, hasked, hlooked, hresult, -⟩ :=
        h.exists_looked (by simp)
      rcases Option.getD_eq_iff.mp hresult.symm with hsettled | ⟨-, hlate⟩
      · obtain ⟨errno, rfl, hintr, rfl⟩ := Readiness.decided_eq_error_iff.mp hsettled
        exact ⟨before, probe, look, errno, hcourse, hasked, hlooked, hintr, rfl⟩
      · cases hlate
    · rintro ⟨before, probe, look, errno, hcourse, -, hlooked, hintr, rfl⟩
      rw [h.eq_of_looked hcourse hlooked,
        Readiness.decided_eq_error_iff.mpr ⟨errno, rfl, hintr, rfl⟩, Option.getD_some]
  timedOut_iff := by
    constructor
    · rintro rfl
      obtain ⟨before, probe, look, answer, hcourse, hasked, hlooked, hresult, hprobe, hlook, hnext,
        hlate⟩ := h.exists_looked (by simp)
      have hopen : leavesOpen answer := Readiness.decided_getD_eq_timedOut_iff.mp hresult.symm
      have hdeadline := hlate (Processes.decided_eq_none_iff.mpr hopen)
      refine ⟨before, probe, look, answer, hcourse, hasked, hlooked, hopen, hdeadline, ?_⟩
      intro hstill
      have hprobe' := hprobe.2 hstill
      have hlook' := hlook.2 hstill
      omega
    · rintro ⟨before, probe, look, answer, hcourse, -, hlooked, hopen, -⟩
      rw [h.eq_of_looked hcourse hlooked]
      exact Readiness.decided_getD_eq_timedOut_iff.mpr hopen

end Patience

namespace Processes

variable (os : Processes ω) (pid : Pid) (probe : Probe os.toClock)

/-- A wait for a helper ends after a bounded number of probes, with what the last
answers say. A mountpoint that is up at the deadline is never reported as timed
out, provided that questions take no time. A logbook changes none of this. -/
theorem awaitReady_outcome {interval : Duration} (timeout : Duration) (pos : 0 < interval)
    (log : Logbook) (w : ω) :
    (∃ course, os.logged.awaitReady pid interval (os.now w + timeout) probe.logged (log, w) =
        ((os.awaitReady pid interval (os.now w + timeout) probe w).1, log ++ course,
          (os.awaitReady pid interval (os.now w + timeout) probe w).2) ∧
      Awaits pid interval timeout (os.now w) (os.MovesOnlyInSleep pid probe) course
        (os.awaitReady pid interval (os.now w + timeout) probe w).1) ∧
    (os.MovesOnlyInSleep pid probe →
      (∀ w', os.now w + timeout ≤ os.now w' → (probe.ask w').1 = true) →
      (os.awaitReady pid interval (os.now w + timeout) probe w).1 ≠ .ok .timedOut) := by
  refine ⟨?_, fun still up => os.awaitReady_ne_timedOut pid interval _ still up w⟩
  obtain ⟨course, hlogged, hpatience⟩ :=
    os.records_awaitReady pid interval (os.now w + timeout) probe
      (fun t t' => t ≤ t' ∧ (os.MovesOnlyInSleep pid probe → t' = t))
      (fun w => ⟨probe.monotone_ask w, fun still => still.1 w⟩)
      (fun w => ⟨os.monotone_poll pid w, fun still => still.2 w⟩) log w
  exact ⟨course, hlogged, hpatience.awaits pos⟩

/-- A mountpoint that comes up at a set time, and the question for it, which takes
no time. -/
def risingAt (up : Nat) : Probe Dictation.kernel.toClock where
  ask := fun w => (decide (up ≤ w.time), w)
  monotone_ask _ := Nat.le_refl _

theorem movesOnlyInSleep_risingAt (up : Nat) :
    Dictation.kernel.MovesOnlyInSleep pid (risingAt up) :=
  ⟨fun _ => rfl, Dictation.time_status⟩

/-- The mountpoint comes up at the deadline, and the helper has been stopped and
continued before. -/
theorem awaitReady_outcome_risingAt :
    0 < 10 ∧ Dictation.kernel.MovesOnlyInSleep 1 (risingAt 25) ∧
      ∃ course, Awaits 1 10 25 0 (Dictation.kernel.MovesOnlyInSleep 1 (risingAt 25)) course
          (Dictation.kernel.awaitReady 1 10 25 (risingAt 25)
            ⟨[], [.running, .stopped .stop, .continued], [], [], [], 0⟩).1 ∧
        (Dictation.kernel.awaitReady 1 10 25 (risingAt 25)
          ⟨[], [.running, .stopped .stop, .continued], [], [], [], 0⟩).1 ≠ .ok .timedOut := by
  obtain ⟨⟨course, -, hawaits⟩, hup⟩ :=
    awaitReady_outcome Dictation.kernel.toProcesses 1 (risingAt 25) 25 (by decide : 0 < 10) []
      ⟨[], [.running, .stopped .stop, .continued], [], [], [], 0⟩
  have hstill := movesOnlyInSleep_risingAt 1 25
  have hrising (w' : Dictation) (h : 0 + 25 ≤ w'.time) : ((risingAt 25).ask w').1 = true :=
    decide_eq_true h
  exact ⟨by decide, hstill, course, hawaits, hup hstill hrising⟩

end Processes
end BucketMount
