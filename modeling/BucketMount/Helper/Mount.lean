import BucketMount.Backend
import BucketMount.Helper.Argv
import BucketMount.Mountpoint.Preparation
import BucketMount.Mountpoint.UserProbe
import BucketMount.Process.Escalation

/-!
# Mounting with a helper

A worker becomes the job user, prepares the mount path, and lets the helper take its place; the program waits until
the path is a mountpoint. A path that is one already is left alone. A process that reads the helper's output may run
beside it; if that cannot be started the mount goes on without it.
-/

namespace BucketMount.Kernel

variable {ω : Type} (k : Kernel ω)

/-- Starts the process that reads the helper's output; no words, no process. -/
def startRelay (command : List Text) : StateM ω (Except MountError (Option (Pid × Pipe))) := do
  match command with
  | [] => return .ok none
  | program :: args =>
    match ← k.openPipe with
    | .error e => return .error (.spawn (.pipe e))
    | .ok pipe =>
      match ← k.startReader ((program :: args).map Text.toUtf8) pipe with
      | .ok pid => return .ok (some (pid, pipe))
      | .error fault =>
        k.closeWriter pipe
        return .error (.spawn (.relay program fault))

def errorOfReport (c : Config) (id : Identity) (d : Directive) (r : Report) : MountError :=
  match r.stage with
  | .privilegeDrop => .privilege (.switch id.uid id.gid r.errno)
  | .inspectPath => .io (.inspect d.path r.errno)
  | .createDir => .io (.create d.path r.errno)
  | .violation v => .validation d.path v
  | .redirect => .spawn (.redirect r.errno)
  | .exec => .exec (.helper c.helperBinary r.errno)

/-- What the worker does once it has become the job user. -/
def helperBody (path : Bytes) (uid mode : Nat) (relay : Option Pipe) (args env : List Bytes)
    (caller : Credentials) (status : Pipe) : StateM ω Ending := do
  match ← k.prepare caller path uid mode with
  | .error r => failed r
  | .ok () =>
    match relay with
    | none => start
    | some pipe =>
      match ← k.redirect pipe with
      | .error e => failed ⟨.redirect, e⟩
      | .ok () => start
where
  /-- Says what went wrong and ends. -/
  failed (r : Report) : StateM ω Ending := do
    k.report status r
    return .exits workerFailure
  /-- Gives the place to the helper. -/
  start : StateM ω Ending := do
    match ← k.exec caller args env with
    | none => return .runs
    | some e => failed ⟨.exec, e⟩

/-- Gives the reader of the helper's output time to end. -/
def releaseRelay (c : Config) (relay : Option (Pid × Pipe)) : StateM ω Unit := do
  if let some (pid, _) := relay then
    let _ ← k.reapOrKill pid (milliseconds c.helperGraceMs)

/-- What becomes of a helper that has taken the place of its worker. -/
def awaitMount (c : Config) (id : Identity) (d : Directive) (helper : Pid) (relay : Option (Pid × Pipe)) :
    StateM ω (Except MountError MountOutcome) := do
  let deadline := k.now (← get) + milliseconds c.readinessTimeoutMs
  let probe := k.userProbe id (Text.toUtf8 d.path)
  match ← k.awaitReady helper (milliseconds c.pollIntervalMs) deadline probe with
  | .error e => return .error e
  | .ok .ready => return .ok (.mounted helper (relay.map Prod.fst))
  | .ok (.exitedEarly status) =>
    k.releaseRelay c relay
    return .error (.helperExited d.path (.status helper status))
  | .ok .timedOut =>
    let _ ← k.terminate helper (milliseconds c.helperGraceMs)
    k.releaseRelay c relay
    return .error (.timeout d.path c.readinessTimeoutMs)

def followWorker (c : Config) (id : Identity) (d : Directive) (worker : Worker) (relay : Option (Pid × Pipe)) :
    StateM ω (Except MountError MountOutcome) := do
  match ← k.readReport worker with
  | .error e => return .error e
  | .ok (some r) =>
    let _ ← k.wait worker
    k.releaseRelay c relay
    return .error (errorOfReport c id d r)
  | .ok none => k.awaitMount c id d worker.pid relay

def startHelper (c : Config) (id : Identity) (d : Directive) (args env : List Bytes) :
    StateM ω (Except MountError MountOutcome) := do
  let relay := (← k.startRelay c.logRelayCommand).toOption.join
  let body := k.helperBody (Text.toUtf8 d.path) id.uid c.mountDirMode (relay.map Prod.snd) args env
  let spawned ← k.spawnAs id body
  if let some (_, pipe) := relay then k.closeWriter pipe
  match spawned with
  | .error e =>
    k.releaseRelay c relay
    return .error e
  | .ok worker => k.followWorker c id d worker relay

def mount (c : Config) (d : Directive) (id : Identity) : StateM ω (Except MountError MountOutcome) := do
  if ← k.isMountedAs id (Text.toUtf8 d.path) then return .ok .alreadyMounted
  let args := (Helper.argv c id d).map Text.toUtf8
  let env := Helper.environment (k.environment (← get)) id
  match Helper.checkStrings args, Helper.checkStrings env with
  | .error e, _ => return .error e
  | _, .error e => return .error e
  | .ok (), .ok () => k.startHelper c id d args env

end BucketMount.Kernel
