import BucketMount.Process.Escalation
import BucketMount.Process.Readiness
import BucketMount.Proofs.Stateful

/-!
# Stopping a process and waiting for it, as rules

What holds while a process is at hand, and what holds once it has been let go,
is up to the user of these rules (`Processes.Handling`). The rules say that
every way of stopping a process starts from the one and ends with the other,
and that the process is touched only as long as no answer has said that it has
ended.
-/

namespace BucketMount

/-- Whether an answer about a child says that it has ended; it has then been
reaped. -/
def saysEnded : Except Errno WaitStatus → Bool
  | .ok status => status.hasEnded
  | .error _ => false

/-- Whether an answer about a child leaves open that it goes on. -/
def leavesOpen : Except Errno WaitStatus → Bool
  | .ok status => !status.hasEnded
  | .error e => e = .eintr

/-- Whether the helper is still at hand after the wait for it. -/
def leavesHelper : Except MountError Readiness → Bool
  | .ok .ready | .ok .timedOut => true
  | _ => false

namespace Processes

variable {ω : Type} {os : Processes ω} {pid : Pid} {P Q : ω → Prop}

/-- The process may be touched under `P`, and no longer needs to be once it
has said that it has ended; `Q` is what holds then. -/
structure Handling (os : Processes ω) (pid : Pid) (P Q : ω → Prop) : Prop where
  sleep : ∀ d w, P w → P (os.sleep d w)
  kill : ∀ signal, Keeps P (os.kill pid signal)
  poll : Ensures P (os.poll pid) fun answer => if saysEnded answer then Q else P
  letGo : ∀ w, P w → Q w

/-- Looking at a process again and again comes to what the last look comes to. -/
theorem ensures_waitUntilGone (sleep : ∀ d w, P w → P (os.sleep d w))
    (isGone : Ensures P (os.isGone pid) fun answer => if answer.1 then Q else P) (deadline : Nat) :
    Ensures P (os.waitUntilGone pid deadline) fun answer => if answer.1 then Q else P := by
  intro w hw
  fun_induction os.waitUntilGone pid deadline w with
  | case1 w notes w' hgone =>
    have := isGone w hw
    rwa [hgone] at this
  | case2 w notes w' hgone hlt gone later w'' hrest ih =>
    have hstill := isGone w hw
    rw [hgone] at hstill
    have := ih (sleep _ _ hstill)
    rwa [hrest] at this
  | case3 w notes w' hgone hle =>
    have := isGone w hw
    rwa [hgone] at this

/-- A process that may not end by itself is stopped. -/
theorem ensures_reapOrKill {grace : Duration}
    (watch : ∀ deadline, Ensures P (os.waitUntilGone pid deadline) fun answer =>
      if answer.1 then Q else P)
    (stop : Ensures P (os.terminate pid grace) fun _ => Q) :
    Ensures P (os.reapOrKill pid grace) fun _ => Q := by
  refine .bind .get fun start => ?_
  refine .bind (watch _) fun answer => ?_
  obtain ⟨gone, notes⟩ := answer
  cases gone with
  | true => exact .bind .get fun _ => .pure fun _ hw => hw
  | false => exact .bind stop fun _ => .bind .get fun _ => .pure fun _ hw => hw

namespace Handling

theorem isGone (h : os.Handling pid P Q) :
    Ensures P (os.isGone pid) fun answer => if answer.1 then Q else P := by
  refine .bind h.poll fun answer => ?_
  cases answer with
  | ok status =>
    exact .pure fun _ hw => hw
  | error e =>
    cases e
    case echild =>
      refine .bind (h.kill none) fun answer => ?_
      split
      · exact .pure h.letGo
      · exact .pure fun _ hw => hw
    case eintr => exact .pure fun _ hw => hw
    all_goals exact .pure h.letGo

theorem waitUntilGone (h : os.Handling pid P Q) (deadline : Nat) :
    Ensures P (os.waitUntilGone pid deadline) fun answer => if answer.1 then Q else P :=
  ensures_waitUntilGone h.sleep h.isGone deadline

theorem deliver (h : os.Handling pid P Q) (signal : Signal) : Keeps P (os.deliver pid signal) := by
  refine .bind (h.kill (some signal)) fun answer => ?_
  split <;> exact .pure fun _ hw => hw

theorem killAndReap (h : os.Handling pid P Q) (grace : Duration) :
    Ensures P (os.killAndReap pid grace) fun _ => Q := by
  refine .bind (h.deliver .kill) fun delivery => ?_
  refine .bind .get fun w => ?_
  refine .bind (h.waitUntilGone _) fun answer => ?_
  refine .pure fun w hw => ?_
  split at hw
  · exact hw
  · exact h.letGo w hw

/-- A process that has been asked to end is waited for, and killed if need be. -/
theorem terminate_of_asked {P₀ : ω → Prop} (h : os.Handling pid P Q)
    (asked : Ensures P₀ (os.deliver pid .term) fun _ => P) (grace : Duration) :
    Ensures P₀ (os.terminate pid grace) fun _ => Q := by
  refine .bind .get fun start => ?_
  refine .bind asked fun asked => ?_
  split
  · exact .bind .get fun _ => .pure h.letGo
  refine .bind .get fun w => ?_
  refine .bind (h.waitUntilGone _) fun answer => ?_
  obtain ⟨gone, notes⟩ := answer
  cases gone with
  | true => exact .bind .get fun _ => .pure fun _ hw => hw
  | false => exact .bind (h.killAndReap grace) fun _ => .bind .get fun _ => .pure fun _ hw => hw

theorem terminate (h : os.Handling pid P Q) (grace : Duration) :
    Ensures P (os.terminate pid grace) fun _ => Q :=
  h.terminate_of_asked (h.deliver .term) grace

theorem reapOrKill (h : os.Handling pid P Q) (grace : Duration) :
    Ensures P (os.reapOrKill pid grace) fun _ => Q :=
  ensures_reapOrKill h.waitUntilGone (h.terminate grace)

end Handling

/-- `P` holds until something has come of the process and `Q` from then on: an
answer about it that does not leave open that it goes on, or a request to end. -/
structure Settling (os : Processes ω) (pid : Pid) (P Q : ω → Prop) : Prop where
  sleep : ∀ d w, P w → P (os.sleep d w)
  poll : Ensures P (os.poll pid) fun answer => if leavesOpen answer then P else Q
  term : Ensures P (os.kill pid (some .term)) fun _ => Q
  /-- Whatever is done about the process afterwards, it stays settled. -/
  settled : os.Handling pid Q Q
  weaken : ∀ w, Q w → P w

namespace Settling

theorem isGone (h : os.Settling pid P Q) :
    Ensures P (os.isGone pid) fun answer => if answer.1 then Q else P := by
  refine .bind h.poll fun answer => ?_
  cases answer with
  | ok status => cases status <;> exact .pure fun _ hw => hw
  | error e =>
    cases e
    case echild =>
      refine .bind (h.settled.kill none) fun answer => ?_
      split
      · exact .pure fun _ hw => hw
      · exact .pure h.weaken
    case eintr => exact .pure fun _ hw => hw
    all_goals exact .pure fun _ hw => hw

theorem terminate (h : os.Settling pid P Q) (grace : Duration) :
    Ensures P (os.terminate pid grace) fun _ => Q := by
  refine h.settled.terminate_of_asked ?_ grace
  refine .bind h.term fun answer => ?_
  split <;> exact .pure fun _ hw => hw

theorem reapOrKill (h : os.Settling pid P Q) (grace : Duration) :
    Ensures P (os.reapOrKill pid grace) fun _ => Q :=
  ensures_reapOrKill (ensures_waitUntilGone h.sleep h.isGone) (h.terminate grace)

end Settling

/-- An answer decides nothing exactly if it leaves open that the process goes
on. -/
theorem decided_eq_none_iff {answer : Except Errno WaitStatus} :
    Readiness.decided pid answer = none ↔ leavesOpen answer := by
  unfold Readiness.decided leavesOpen
  split <;> simp_all

theorem decided_eq_some {answer : Except Errno WaitStatus} {result : Except MountError Readiness}
    (h : Readiness.decided pid answer = some result) : leavesHelper result = false := by
  unfold Readiness.decided at h
  split at h
  · split at h <;> cases h
    rfl
  · cases h
  · cases h
    rfl

/-- A wait for a helper ends with the helper at hand, unless an answer about
it has not left open that it goes on. -/
theorem ensures_awaitReady {interval deadline : Nat} {probe : Probe os.toClock}
    (sleep : ∀ d w, P w → P (os.sleep d w)) (ask : Keeps P probe.ask)
    (poll : Ensures P (os.poll pid) fun answer => if leavesOpen answer then P else Q) :
    Ensures P (os.awaitReady pid interval deadline probe) fun result =>
      if leavesHelper result then P else Q := by
  -- one turn of the loop: the path is asked for, and then the helper
  have turn {w w₁ w₂ : ω} {answer : Except Errno WaitStatus} (hw : P w)
      (hprobe : probe.ask w = (false, w₁)) (hpoll : os.poll pid w₁ = (answer, w₂)) :
      (if leavesOpen answer then P else Q) w₂ := by
    have hask := ask w hw
    rw [hprobe] at hask
    have hleft := poll w₁ hask
    rwa [hpoll] at hleft
  intro w hw
  fun_induction os.awaitReady pid interval deadline probe w with
  | case1 w w₁ hprobe =>
    have hask := ask w hw
    rwa [hprobe] at hask
  | case2 w w₁ hprobe answer w₂ hpoll result hdecided =>
    have hsettled : ¬leavesOpen answer := by
      intro hopen
      have hnone : Readiness.decided pid answer = none := decided_eq_none_iff.mpr hopen
      rw [hdecided] at hnone
      cases hnone
    have hleft := turn hw hprobe hpoll
    rw [if_neg hsettled] at hleft
    rwa [decided_eq_some hdecided, if_neg Bool.false_ne_true]
  | case3 w w₁ hprobe answer w₂ hpoll hdecided hlt ih =>
    have hleft := turn hw hprobe hpoll
    rw [if_pos (decided_eq_none_iff.mp hdecided)] at hleft
    exact ih (sleep _ _ hleft)
  | case4 w w₁ hprobe answer w₂ hpoll hdecided hle =>
    have hleft := turn hw hprobe hpoll
    rwa [if_pos (decided_eq_none_iff.mp hdecided)] at hleft

end Processes
end BucketMount
