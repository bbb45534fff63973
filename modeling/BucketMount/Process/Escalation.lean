import BucketMount.Process.Basic

/-!
# Stopping a process

A process is asked to end, is given some time, and is then killed. A process that is no child of the program cannot be
waited for; it is asked after with signal 0. `KillReport` says what was sent and whether the process was seen to be
gone.
-/

namespace BucketMount

inductive KillNote where
  | waitFailed (pid : Pid) (errno : Errno)
  | signalFailed (signal : Signal) (pid : Pid) (errno : Errno)
  | stated (text : Text)
deriving DecidableEq, Repr

def KillNote.message : KillNote → Text
  | waitFailed pid e => "waitpid(".toList ++ Text.decimal pid ++ ") failed: ".toList ++ e.message
  | signalFailed signal pid e =>
    signal.name ++ " to ".toList ++ Text.decimal pid ++ " failed: ".toList ++ e.message
  | stated text => text

structure KillReport where
  termSent : Bool
  killSent : Bool
  /-- The process has been reaped or does not exist. -/
  gone : Bool
  waitedMs : Nat
  notes : List KillNote
deriving DecidableEq, Repr

/-- The time between two looks at a process. -/
def pollStep : Duration := milliseconds 10

/-- The least time a process gets after SIGKILL. -/
def killGrace : Duration := milliseconds 500

namespace Processes

variable {ω : Type} (os : Processes ω)

/-- Whether the process is gone. A child that has ended is reaped. -/
def isGone (pid : Pid) : StateM ω (Bool × List KillNote) := do
  match ← os.poll pid with
  | .ok status => return (status.hasEnded, [])
  | .error .eintr => return (false, [])
  | .error .echild =>
    match ← os.kill pid none with
    | .error .esrch => return (true, [])
    | _ => return (false, [])
  | .error e => return (true, [.waitFailed pid e])

theorem monotone_isGone (pid : Pid) : os.Monotone (os.isGone pid) := by
  refine .bind (os.monotone_poll pid) fun answer => ?_
  cases answer with
  | ok s => exact .pure _
  | error e =>
    cases e
    case echild =>
      refine .bind (os.monotone_kill pid none) fun answer => ?_
      cases answer with
      | ok s => exact .pure _
      | error e => cases e <;> exact .pure _
    all_goals exact .pure _

/-- Looks at the process until it is gone or the deadline has passed. -/
def waitUntilGone (pid : Pid) (deadline : Nat) (w : ω) : (Bool × List KillNote) × ω :=
  match _h : os.isGone pid w with
  | ((true, notes), w') => ((true, notes), w')
  | ((false, notes), w') =>
    if os.now w' < deadline then
      let ((gone, later), w'') :=
        waitUntilGone pid deadline (os.sleep (min pollStep (deadline - os.now w')) w')
      ((gone, notes ++ later), w'')
    else ((false, notes), w')
termination_by deadline - os.now w
decreasing_by
  rename_i hlt
  have h1 := os.monotone_isGone pid w
  rw [_h] at h1
  have h2 := os.now_sleep (min pollStep (deadline - os.now w')) w'
  have h3 : (0 : Nat) < pollStep := by decide
  simp only at h1
  omega

inductive Delivery where
  | sent
  /-- There is no such process: it has ended, and someone else has reaped it. -/
  | absent
  | failed (errno : Errno)
deriving DecidableEq, Repr

def deliver (pid : Pid) (signal : Signal) : StateM ω Delivery := do
  match ← os.kill pid (some signal) with
  | .ok () => return .sent
  | .error .esrch => return .absent
  | .error e => return .failed e

def Delivery.notes (pid : Pid) (signal : Signal) : Delivery → List KillNote
  | failed e => [.signalFailed signal pid e]
  | _ => []

def elapsedMs (start : Nat) (w : ω) : Nat := (os.now w - start) / 1000000

/-- SIGKILL, and the wait after it. -/
def killAndReap (pid : Pid) (grace : Duration) : StateM ω (Delivery × Bool × List KillNote) := do
  let delivery ← os.deliver pid .kill
  let (gone, notes) ← os.waitUntilGone pid (os.now (← get) + max grace killGrace)
  return (delivery, gone, delivery.notes pid .kill ++ notes)

/-- SIGTERM, up to `grace` to end, then SIGKILL. -/
def terminate (pid : Pid) (grace : Duration) : StateM ω KillReport := do
  let start := os.now (← get)
  let asked ← os.deliver pid .term
  if asked = .absent then return ⟨false, false, true, os.elapsedMs start (← get), []⟩
  let (gone, notes) ← os.waitUntilGone pid (os.now (← get) + grace)
  let notes := asked.notes pid .term ++ notes
  if gone then return ⟨asked = .sent, false, true, os.elapsedMs start (← get), notes⟩
  let (killed, gone, later) ← os.killAndReap pid grace
  return ⟨asked = .sent, killed = .sent, gone, os.elapsedMs start (← get), notes ++ later⟩

/-- Gives a process `grace` to end by itself before it is stopped. -/
def reapOrKill (pid : Pid) (grace : Duration) : StateM ω KillReport := do
  let start := os.now (← get)
  let (gone, notes) ← os.waitUntilGone pid (start + grace)
  if gone then return ⟨false, false, true, os.elapsedMs start (← get), notes⟩
  let report ← os.terminate pid grace
  return { report with notes := notes ++ report.notes }

end Processes
end BucketMount
