import BucketMount.Process.Escalation
import BucketMount.Process.Readiness
import BucketMount.Proofs.Process.Rules
import BucketMount.Proofs.Recorder
import Mathlib.Algebra.Order.Floor.Div
import Mathlib.Algebra.Order.Ring.Nat

/-!
# Logbooks

What is done about a process, with every answer and with the time before and
after it: a record of processes and of questions about them (`Processes.logged`,
`Probe.logged`). The new entries of a run are all that the run has done. What they
are is said with `Records`, where nothing but the time is to be seen of a state.
-/

namespace BucketMount

/-- Something that is done about a process, with the answer. -/
inductive Act where
  | signalled (pid : Pid) (signal : Option Signal) (answer : Except Errno Unit)
  | looked (pid : Pid) (answer : Except Errno WaitStatus)
  | probed (answer : Bool)
  | paused (length : Duration)

structure Entry where
  act : Act
  /-- The time before. -/
  began : Nat
  /-- The time after. -/
  ended : Nat

/-- What has been done, the earliest first. -/
abbrev Logbook := List Entry

variable {ω α : Type}

/-- An operation that is entered with its answer. -/
def entered (clock : Clock ω) (act : α → Act) (op : StateM ω α) : StateM (Logbook × ω) α :=
  recording (fun w a w' => [⟨act a, clock.now w, clock.now w'⟩]) op

/-- The processes with a logbook. -/
def Processes.logged (os : Processes ω) : Processes (Logbook × ω) :=
  { os.beside Logbook with
    sleep := fun d s =>
      (s.1 ++ [⟨.paused d, os.now s.2, os.now (os.sleep d s.2)⟩], os.sleep d s.2)
    now_sleep := fun d s => os.now_sleep d s.2
    kill := fun pid signal => entered os.toClock (.signalled pid signal) (os.kill pid signal)
    poll := fun pid => entered os.toClock (.looked pid) (os.poll pid)
    monotone_kill := fun pid signal s => os.monotone_kill pid signal s.2
    monotone_poll := fun pid s => os.monotone_poll pid s.2 }

/-- The question with a logbook. -/
def Probe.logged {os : Processes ω} (probe : Probe os.toClock) : Probe os.logged.toClock where
  ask := entered os.toClock .probed probe.ask
  monotone_ask s := probe.monotone_ask s.2

theorem Processes.logged_poll {os : Processes ω} {pid : Pid} {w w' : ω}
    {answer : Except Errno WaitStatus} (h : os.poll pid w = (answer, w')) (log : Logbook) :
    os.logged.poll pid (log, w) =
      (answer, log ++ [⟨.looked pid answer, os.now w, os.now w'⟩], w') := by
  simp only [logged, entered, recording, h]

theorem Probe.logged_ask {os : Processes ω} {probe : Probe os.toClock} {w w' : ω} {answer : Bool}
    (h : probe.ask w = (answer, w')) (log : Logbook) :
    probe.logged.ask (log, w) = (answer, log ++ [⟨.probed answer, os.now w, os.now w'⟩], w') := by
  simp only [logged, entered, recording, h]

/-- One entry from one time to another, of which is known what is known of
every time before and after the operation. -/
theorem records_entered {clock : Clock ω} {act : α → Act} {op : StateM ω α}
    {Lasts : Nat → Nat → Prop} (lasts : ∀ w, Lasts (clock.now w) (clock.now (op w).2)) :
    Records clock.now (entered clock act op) op
      fun t entries t' a => Lasts t t' ∧ entries = [⟨act a, t, t'⟩] :=
  .recording fun w => ⟨lasts w, rfl⟩

/-! ## How often there is time to pause -/

/-- A pause of one step, or of the time that is left if that is shorter, leaves
time for one step less. -/
theorem ceilDiv_succ_le_of_pause {left left' step : Nat} (hstep : 0 < step) (hleft : 0 < left)
    (paused : left' + min step left ≤ left) : left' ⌈/⌉ step + 1 ≤ left ⌈/⌉ step := by
  have hfits : left ≤ step * (left ⌈/⌉ step) := le_smul_ceilDiv hstep
  obtain ⟨n, hn⟩ : ∃ n, left ⌈/⌉ step = n + 1 := by
    refine Nat.exists_eq_add_one_of_ne_zero fun hzero => ?_
    rw [hzero] at hfits
    omega
  rw [hn] at hfits ⊢
  rw [Nat.mul_add, Nat.mul_one] at hfits
  apply Nat.succ_le_succ
  rw [ceilDiv_le_iff_le_mul hstep]
  rcases Nat.le_total step left with hlong | hshort
  · rw [Nat.min_eq_left hlong] at paused
    omega
  · rw [Nat.min_eq_right hshort] at paused
    have hnone : left' = 0 := by omega
    rw [hnone]
    exact Nat.zero_le _

end BucketMount
