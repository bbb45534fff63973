import BucketMount.Hooks.Step
import BucketMount.Worker.Basic

/-!
# Running a command within a step

A step mounts what is missing, runs a command as the job user, and undoes its mounts. A termination signal is passed
on to the command; one that arrives before the command is started takes its place. The mounts are undone however the
command ends, and then the signals are arranged as they were before.
-/

namespace BucketMount

inductive CommandEnd where
  /-- With an exit code; 128 and more stand for signals. -/
  | code (n : Nat)
  /-- It could not be run, or not be waited for. -/
  | failed (error : MountError)
  /-- It is still running after all the looks that were allowed. -/
  | unfinished
deriving DecidableEq, Repr

inductive StepEnd where
  /-- The list of mounts could not be read; nothing was done. -/
  | noMounts (error : MountError)
  /-- The command has ended, or could not be run. -/
  | command (how : CommandEnd)
deriving DecidableEq, Repr

def signalCode (s : Signal) : Nat := 128 + s.number

def exitCode : WaitStatus → Nat
  | .exited code => code
  | .signaled s _ => signalCode s
  | _ => workerFailure

namespace Kernel

variable {ω : Type} (k : Kernel ω)

/-- Gives the worker's place to a command, with the environment of the program. -/
def commandBody (args env : List Bytes) (caller : Credentials) (status : Pipe) : StateM ω Ending := do
  match ← k.exec caller args env with
  | none => return .runs
  | some e =>
    k.report status ⟨.exec, e⟩
    return .exits workerFailure

/-- Waits for the command's worker; a report of the worker counts more than its end. -/
def followCommand (worker : Worker) (looks : Nat) : StateM (Guarded ω) CommandEnd := do
  match ← guarded (k.readReport worker) with
  | .error e => return .failed e
  | .ok report =>
    match ← k.waitForwarding worker looks, report with
    | none, _ => return .unfinished
    | some (.error e), _ => return .failed e
    | some (.ok _), some r => return .failed (.exec (.command r))
    | some (.ok status), none => return .code (exitCode status)

/-- Runs a command as the job user and passes on every signal that is caught meanwhile. -/
def runAs (id : Identity) (args : List Bytes) (looks : Nat) : StateM (Guarded ω) CommandEnd := do
  let env := (k.environment (← get).world).entries
  match ← guarded (k.spawnAs id (k.commandBody args env)) with
  | .error e => return .failed e
  | .ok worker => k.followCommand worker looks

def runUnlessSignalled (id : Identity) (args : List Bytes) (looks : Nat) : StateM (Guarded ω) CommandEnd := do
  match ← k.takeSignal with
  | some s => return .code (signalCode s.toSignal)
  | none => k.runAs id args looks

def announce (name : Text) (report : SetupReport) : StateM ω Unit := do
  report.failed.forM fun (what, e) => k.printError (Text.toUtf8 (what ++ ": ".toList ++ e.message ++ ['\n']))
  if !report.isSuccess then
    k.printError <| Text.toUtf8 <|
      "Warning: ".toList ++ Text.decimal report.failed.length ++ " of ".toList ++ Text.decimal report.total ++
        " mounts failed via ".toList ++ name ++ ['\n']

def step (backend : Backend ω) (id : Identity) (stored : Except MountError (Option Text)) (tracker : Tracker)
    (args : List Bytes) (looks : Nat) : StateM (Guarded ω) (StepEnd × Tracker) := do
  let handler ← k.catchSignals
  let (setup, tracker) ← guarded (Hooks.stepSetup backend id stored tracker)
  match setup with
  | .error e =>
    k.releaseSignals handler
    return (.noMounts e, tracker)
  | .ok report =>
    guarded (k.announce backend.name report)
    match ← k.runUnlessSignalled id args looks with
    | .unfinished => return (.command .unfinished, tracker)
    | how =>
      let (_, tracker) ← guarded (Hooks.stepTeardown backend k.toProcesses tracker)
      k.releaseSignals handler
      return (.command how, tracker)

end Kernel
end BucketMount
