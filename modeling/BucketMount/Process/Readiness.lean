import BucketMount.Error
import BucketMount.Process.Basic

/-!
# Waiting for a helper to be ready

A helper is ready when a probe says so. In every round the probe comes first, so a helper that has done its work and
then ends counts as ready; after it the process is asked after, and the clock comes last.
-/

namespace BucketMount

inductive Readiness where
  | ready
  /-- The helper has ended first and has been reaped. -/
  | exitedEarly (status : WaitStatus)
  /-- The deadline has passed and the helper is still running. -/
  | timedOut
deriving DecidableEq, Repr

def Readiness.decided (pid : Pid) : Except Errno WaitStatus → Option (Except MountError Readiness)
  | .ok status => if status.hasEnded then some (.ok (.exitedEarly status)) else none
  | .error .eintr => none
  | .error e => some (.error (.spawn (.wait pid e)))

structure Probe {ω : Type} (clock : Clock ω) where
  ask : StateM ω Bool
  monotone_ask : clock.Monotone ask

namespace Processes

variable {ω : Type} (os : Processes ω)

/-- Asks the probe every `interval` until it agrees, the process ends or the deadline has passed. A pause of no length
still takes the shortest time the clock shows. -/
def awaitReady (pid : Pid) (interval : Duration) (deadline : Nat) (probe : Probe os.toClock) (w : ω) :
    Except MountError Readiness × ω :=
  match _hprobe : probe.ask w with
  | (true, w₁) => (.ok .ready, w₁)
  | (false, w₁) =>
    match _hpoll : os.poll pid w₁ with
    | (answer, w₂) =>
      match Readiness.decided pid answer with
      | some result => (result, w₂)
      | none =>
        if os.now w₂ < deadline then
          awaitReady pid interval deadline probe
            (os.sleep (max 1 (min interval (deadline - os.now w₂))) w₂)
        else (.ok .timedOut, w₂)
termination_by deadline - os.now w
decreasing_by
  have h1 := probe.monotone_ask w
  rw [_hprobe] at h1
  have h2 := os.monotone_poll pid w₁
  rw [_hpoll] at h2
  have h3 := os.now_sleep (max 1 (min interval (deadline - os.now w₂))) w₂
  simp only at h1 h2
  omega

end Processes
end BucketMount
