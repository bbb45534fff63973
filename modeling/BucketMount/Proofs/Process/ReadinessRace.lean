import BucketMount.Proofs.Process.Rules

/-!
# A helper that mounts and then ends

The wait for a helper asks for its mountpoint first in every round, so that a
helper that has done its work and then ends should count as ready. It does,
unless it does both between the question and the end of one round
(`awaitReady_of_course`): that round has seen neither the mountpoint nor a
running helper, and the wait is over before the mountpoint is asked for again
(`course_not_ready`).
-/

namespace BucketMount
namespace Processes

variable {ω : Type}

/-- What a helper does while it is waited for: its mountpoint comes up and stays
up, and after that it ends, both before the deadline. Nothing goes wrong when it
is asked after. -/
structure Course (os : Processes ω) (probe : Probe os.toClock) (pid : Pid) (deadline : Nat) where
  /-- The mountpoint is up. -/
  Up : ω → Prop
  /-- The helper has ended. -/
  Gone : ω → Prop
  /-- No answer has said so yet. -/
  Untold : ω → Prop
  up_of_gone : ∀ w, Gone w → Up w
  up_ask : Keeps Up probe.ask
  up_poll : Keeps Up (os.poll pid)
  up_sleep : ∀ d w, Up w → Up (os.sleep d w)
  gone_ask : Keeps Gone probe.ask
  gone_poll : Keeps Gone (os.poll pid)
  gone_sleep : ∀ d w, Gone w → Gone (os.sleep d w)
  untold_ask : Keeps Untold probe.ask
  untold_sleep : ∀ d w, Untold w → Untold (os.sleep d w)
  ask_of_up : ∀ w, Up w → (probe.ask w).1 = true
  up_of_ask : ∀ w, (probe.ask w).1 = true → Up (probe.ask w).2
  /-- A helper that has ended is said to have ended, unless the question is
  interrupted. -/
  poll_of_gone : ∀ w, Untold w → Gone w →
    saysEnded (os.poll pid w).1 ∨ (os.poll pid w).1 = .error .eintr
  poll : Ensures Untold (os.poll pid) fun answer w =>
    if leavesOpen answer then Untold w else saysEnded answer ∧ Gone w
  gone_of_deadline : ∀ w, deadline ≤ os.now w → Gone w

/-- The wait gets from the first state to the second, where a round starts:
every round before that has found neither the mountpoint nor an end. -/
inductive Rounds (os : Processes ω) (probe : Probe os.toClock) (pid : Pid)
    (interval : Duration) (deadline : Nat) : ω → ω → Prop where
  | nil (w : ω) : Rounds os probe pid interval deadline w w
  | cons {w w₁ w₂ w' : ω} {answer : Except Errno WaitStatus}
      (asked : probe.ask w = (false, w₁)) (looked : os.poll pid w₁ = (answer, w₂))
      (running : leavesOpen answer) (early : os.now w₂ < deadline)
      (later : Rounds os probe pid interval deadline
        (os.sleep (max 1 (min interval (deadline - os.now w₂))) w₂) w') :
      Rounds os probe pid interval deadline w w'

variable {os : Processes ω} {probe : Probe os.toClock} {pid : Pid} {deadline : Nat}

/-- The wait ends with a round that starts before the mountpoint is up and ends
after the helper has ended: the mountpoint was asked for too early, and what came
next was the end of the helper or of the time. -/
structure Course.Missed (c : os.Course probe pid deadline) (w₀ : ω)
    (outcome : Except MountError Readiness × ω) : Prop where
  down : ¬c.Up w₀
  gone : c.Gone outcome.2
  last : outcome.2 = (os.poll pid (probe.ask w₀).2).2
  seen : (∃ status : WaitStatus, status.hasEnded ∧
      (os.poll pid (probe.ask w₀).2).1 = .ok status ∧ outcome.1 = .ok (.exitedEarly status)) ∨
    deadline ≤ os.now outcome.2 ∧ outcome.1 = .ok .timedOut

namespace Course

variable (c : os.Course probe pid deadline)

theorem not_up_of_ask {w w₁ : ω} (asked : probe.ask w = (false, w₁)) : ¬c.Up w := by
  intro hup
  have hyes := c.ask_of_up w hup
  rw [asked] at hyes
  cases hyes

/-- One turn of the wait that does not find the mountpoint. -/
theorem turn {w w₁ w₂ : ω} {answer : Except Errno WaitStatus} (hw : c.Untold w)
    (asked : probe.ask w = (false, w₁)) (looked : os.poll pid w₁ = (answer, w₂)) :
    if leavesOpen answer then c.Untold w₂ else saysEnded answer ∧ c.Gone w₂ := by
  have huntold := c.untold_ask w hw
  rw [asked] at huntold
  have hpoll := c.poll w₁ huntold
  rwa [looked] at hpoll

end Course

theorem decided_of_saysEnded (pid : Pid) {answer : Except Errno WaitStatus} (h : saysEnded answer) :
    ∃ status : WaitStatus, status.hasEnded ∧ answer = .ok status ∧
      Readiness.decided pid answer = some (.ok (.exitedEarly status)) := by
  cases answer with
  | ok status => exact ⟨status, h, rfl, if_pos h⟩
  | error e => cases h

/-- A helper that mounts and then ends counts as ready, unless one round starts
before the one and ends after the other. -/
theorem awaitReady_of_course (c : os.Course probe pid deadline) (interval : Duration) (w : ω)
    (hw : c.Untold w) :
    let outcome := os.awaitReady pid interval deadline probe w
    (outcome.1 = .ok .ready ∧ c.Up outcome.2) ∨
      ∃ w₀, os.Rounds probe pid interval deadline w w₀ ∧ c.Missed w₀ outcome := by
  dsimp only
  fun_induction os.awaitReady pid interval deadline probe w with
  | case1 w w₁ hprobe =>
    have hup := c.up_of_ask w (by rw [hprobe])
    rw [hprobe] at hup
    exact Or.inl ⟨rfl, hup⟩
  | case2 w w₁ hprobe answer w₂ hpoll result hdecided =>
    have hturn := c.turn hw hprobe hpoll
    have hclosed : ¬leavesOpen answer := by
      intro hopen
      rw [decided_eq_none_iff.mpr hopen] at hdecided
      cases hdecided
    rw [if_neg hclosed] at hturn
    obtain ⟨hends, hgone⟩ := hturn
    obtain ⟨status, hended, rfl, hearly⟩ := decided_of_saysEnded pid hends
    have hresult : result = .ok (.exitedEarly status) :=
      Option.some.inj (hdecided.symm.trans hearly)
    have hlast : os.poll pid (probe.ask w).2 = (.ok status, w₂) := by rw [hprobe, hpoll]
    refine Or.inr ⟨w, .nil w, c.not_up_of_ask hprobe, hgone, by rw [hlast], Or.inl ?_⟩
    exact ⟨status, hended, by rw [hlast], hresult⟩
  | case3 w w₁ hprobe answer w₂ hpoll hdecided hlt ih =>
    have hopen : leavesOpen answer := decided_eq_none_iff.mp hdecided
    have hturn := c.turn hw hprobe hpoll
    rw [if_pos hopen] at hturn
    rcases ih (c.untold_sleep _ _ hturn) with hready | ⟨w₀, hrounds, hmissed⟩
    · exact Or.inl hready
    · exact Or.inr ⟨w₀, .cons hprobe hpoll hopen hlt hrounds, hmissed⟩
  | case4 w w₁ hprobe answer w₂ hpoll hdecided hle =>
    have hpast : deadline ≤ os.now w₂ := Nat.le_of_not_lt hle
    have hlast : os.poll pid (probe.ask w).2 = (answer, w₂) := by rw [hprobe, hpoll]
    exact Or.inr ⟨w, .nil w, c.not_up_of_ask hprobe, c.gone_of_deadline w₂ hpast, by rw [hlast],
      Or.inr ⟨hpast, rfl⟩⟩

/-! ## A stopwatch -/

/-- Processes in a world in which only time passes: one helper, which ends at a
set time. Every question takes its answer at once and ten units of time. -/
def stopwatch (ending : Nat) : Processes Nat where
  now := id
  sleep d w := w + d
  now_sleep _ _ := Nat.le_refl _
  kill _ _ := pure (.ok ())
  poll _ := fun w => (.ok (if ending ≤ w then .exited 0 else .running), w + 10)
  monotone_kill _ _ _ := Nat.le_refl _
  monotone_poll _ _ := Nat.le_add_right _ _

/-- A mountpoint that comes up at a set time. -/
def risingProbe (mounting : Nat) {ending : Nat} : Probe (stopwatch ending).toClock where
  ask := fun w => (decide (mounting ≤ w), w + 10)
  monotone_ask _ := Nat.le_add_right _ _

/-- The helper of a stopwatch mounts and then ends. -/
def stopwatchCourse (pid : Pid) {mounting ending deadline : Nat} (order : mounting ≤ ending)
    (inTime : ending ≤ deadline) :
    (stopwatch ending).Course (risingProbe mounting) pid deadline where
  Up w := mounting ≤ w
  Gone w := ending ≤ w
  Untold _ := True
  up_of_gone _ h := Nat.le_trans order h
  up_ask _ h := Nat.le_add_right_of_le h
  up_poll _ h := Nat.le_add_right_of_le h
  up_sleep _ _ h := Nat.le_add_right_of_le h
  gone_ask _ h := Nat.le_add_right_of_le h
  gone_poll _ h := Nat.le_add_right_of_le h
  gone_sleep _ _ h := Nat.le_add_right_of_le h
  untold_ask _ _ := trivial
  untold_sleep _ _ _ := trivial
  ask_of_up _ h := decide_eq_true h
  up_of_ask _ h := Nat.le_add_right_of_le (of_decide_eq_true h)
  poll_of_gone w _ h := by
    left
    simp only [stopwatch, if_pos h]
    rfl
  poll w _ := by
    by_cases h : ending ≤ w
    · simp only [stopwatch, if_pos h]
      exact ⟨rfl, Nat.le_add_right_of_le h⟩
    · simp only [stopwatch, if_neg h]
      trivial
  gone_of_deadline _ h := Nat.le_trans inTime h

/-- A helper that does everything while one round is between the mountpoint and
the helper is found to have ended. -/
theorem awaitReady_stopwatch {mounting ending deadline w : Nat} (pid : Pid) (interval : Duration)
    (down : w < mounting) (done : ending ≤ w + 10) :
    (stopwatch ending).awaitReady pid interval deadline (risingProbe mounting) w =
      (.ok (.exitedEarly (.exited 0)), w + 20) := by
  have hask : (risingProbe mounting : Probe (stopwatch ending).toClock).ask w =
      (false, w + 10) := by
    simp [risingProbe, Nat.not_le_of_lt down]
  have hpoll : (stopwatch ending).poll pid (w + 10) = (.ok (.exited 0), w + 20) := by
    simp [stopwatch, done]
  have hdecided : Readiness.decided pid (.ok (.exited 0)) =
    some (.ok (.exitedEarly (.exited 0))) := rfl
  -- a round that is decided otherwise would have had another answer
  fun_cases (stopwatch ending).awaitReady pid interval deadline (risingProbe mounting) w with
  | case1 w₁ hprobe => cases hask.symm.trans hprobe
  | case2 w₁ hprobe answer w₂ hlooked result hresult =>
    cases hask.symm.trans hprobe
    cases hpoll.symm.trans hlooked
    cases hdecided.symm.trans hresult
    rfl
  | case3 w₁ hprobe answer w₂ hlooked hundecided _ =>
    cases hask.symm.trans hprobe
    cases hpoll.symm.trans hlooked
    cases hdecided.symm.trans hundecided
  | case4 w₁ hprobe answer w₂ hlooked hundecided _ =>
    cases hask.symm.trans hprobe
    cases hpoll.symm.trans hlooked
    cases hdecided.symm.trans hundecided

/-- The mountpoint comes up at 4 and the helper ends at 7, while the first round
is between the mountpoint, which it has asked for at 0, and the helper, which it
asks after at 10. -/
def race : (stopwatch 7).Course (risingProbe 4) 1 1000 :=
  stopwatchCourse 1 (by decide) (by decide)

theorem awaitReady_of_race :
    race.Untold 0 ∧ ∃ w₀, (stopwatch 7).Rounds (risingProbe 4) 1 20 1000 0 w₀ ∧
      race.Missed w₀ ((stopwatch 7).awaitReady 1 20 1000 (risingProbe 4) 0) := by
  refine ⟨trivial, ?_⟩
  rcases awaitReady_of_course race 20 0 trivial with ⟨hready, _⟩ | hmissed
  · rw [awaitReady_stopwatch 1 20 (by decide) (by decide)] at hready
    cases hready
  · exact hmissed

/-- Not every helper that mounts and then ends counts as ready. -/
theorem course_not_ready :
    ¬∀ (ω : Type) (os : Processes ω) (probe : Probe os.toClock) (pid : Pid)
      (interval deadline : Nat) (c : os.Course probe pid deadline) (w : ω), c.Untold w →
        (os.awaitReady pid interval deadline probe w).1 = .ok .ready := by
  intro hready
  have hrace := hready Nat (stopwatch 7) (risingProbe 4) 1 20 1000 race 0 trivial
  rw [awaitReady_stopwatch 1 20 (by decide) (by decide)] at hrace
  cases hrace

end Processes
end BucketMount
