import BucketMount.Kernel

/-!
# Workers

A worker is a forked process that first becomes the job user and only then does its job. What goes wrong before its
job is done it writes to the status pipe, which closes when another program takes its place; so the program reads
the end of the pipe exactly when that has happened.
-/

namespace BucketMount

/-- The code of a worker that fails before it has done its job. -/
def workerFailure : Nat := 125

/-- The time between two looks at a worker whose signals are passed on. -/
def forwardStep : Duration := milliseconds 20

structure Worker where
  pid : Pid
  status : Pipe
deriving DecidableEq, Repr

namespace Kernel

variable {ω : Type} (k : Kernel ω)

/-- Writes bytes to a pipe, as far as it takes them. -/
def send (pipe : Pipe) (bytes : Bytes) (w : ω) : Unit × ω :=
  match bytes with
  | [] => ((), w)
  | b :: rest =>
    match _h : k.write pipe (b :: rest) w with
    | (.ok 0, w') => ((), w')
    | (.ok (n + 1), w') => send pipe (rest.drop n) w'
    | (.error e, w') => if _he : e = .eintr then send pipe (b :: rest) w' else ((), w')
termination_by (bytes.length, k.interruptions w)
decreasing_by
  · apply Prod.Lex.left
    simp only [List.length_drop, List.length_cons]
    omega
  · apply Prod.Lex.right
    have := k.interrupted_write pipe (b :: rest) w
    simp_all

def report (pipe : Pipe) (r : Report) : StateM ω Unit := k.send pipe r.encode

/-- The life of a worker: it becomes the identity and runs `body`, or reports that it cannot. -/
def live (id : Identity) (body : Credentials → Pipe → StateM ω Ending) (pipe : Pipe) : StateM ω Ending := do
  match Credentials.dropTo k.idRules id (k.credentials (← get)) with
  | (.ok (), caller) => body caller pipe
  | (.error e, _) =>
    k.report pipe ⟨.privilegeDrop, e⟩
    return .exits workerFailure

def spawnAs (id : Identity) (body : Credentials → Pipe → StateM ω Ending) :
    StateM ω (Except MountError Worker) := do
  match ← k.openPipe with
  | .error e => return .error (.spawn (.pipe e))
  | .ok pipe =>
    match ← k.fork with
    | .error e => return .error (.spawn (.fork e))
    | .ok pid =>
      k.leave pid (← k.live id body pipe)
      return .ok ⟨pid, pipe⟩

/-- Reads from a pipe until a report is complete or the pipe ends. -/
def fill (pipe : Pipe) (got : Bytes) (w : ω) : Except Errno Bytes × ω :=
  if _hgot : got.length < Report.size then
    match _h : k.read pipe (Report.size - got.length) w with
    | (.ok [], w') => (.ok got, w')
    | (.ok (b :: chunk), w') => fill pipe (got ++ b :: chunk) w'
    | (.error e, w') => if _he : e = .eintr then fill pipe got w' else (.error e, w')
  else (.ok got, w)
termination_by (Report.size - got.length, k.interruptions w)
decreasing_by
  · apply Prod.Lex.left
    simp only [List.length_append, List.length_cons]
    omega
  · apply Prod.Lex.right
    have := k.interrupted_read pipe (Report.size - got.length) w
    simp_all

/-- Waits until the worker reports a failure, or has done its job or given its place to another program. -/
def readReport (worker : Worker) : StateM ω (Except MountError (Option Report)) := do
  match ← k.fill worker.status [] with
  | .error e => return .error (.io (.readStatus e))
  | .ok bytes =>
    if bytes.length = 0 then return .ok none
    else if bytes.length = Report.size then
      match Report.decode bytes with
      | some r => return .ok (some r)
      | none => return .error (.spawn (.unknownStatus worker.pid))
    else return .error (.spawn (.truncatedStatus worker.pid bytes.length))

def tryWait (worker : Worker) : StateM ω (Except MountError (Option WaitStatus)) := do
  match ← k.poll worker.pid with
  | .ok .running => return .ok none
  | .ok status => return .ok (some status)
  | .error .eintr => return .ok none
  | .error e => return .error (.spawn (.wait worker.pid e))

def awaitEnd (pid : Pid) (w : ω) : Except MountError WaitStatus × ω :=
  match _h : k.await pid w with
  | (.ok status, w') => if _hs : status.hasEnded then (.ok status, w') else awaitEnd pid w'
  | (.error e, w') => if _he : e = .eintr then awaitEnd pid w' else (.error (.spawn (.wait pid e)), w')
termination_by k.interruptions w
decreasing_by
  · have := k.interrupted_await pid w
    simp_all
  · have := k.interrupted_await pid w
    simp_all

def wait (worker : Worker) : StateM ω (Except MountError WaitStatus) := k.awaitEnd worker.pid

end Kernel

/-- The signals of the program beside everything around it. -/
structure Guarded (ω : Type) where
  signals : SignalTable
  world : ω

namespace Kernel

variable {ω : Type} (k : Kernel ω)

def guarded {α : Type} (op : StateM ω α) : StateM (Guarded ω) α := fun g =>
  let (a, w) := op g.world
  (a, { g with world := w })

/-- Lets the signals that have arrived take their effect. -/
def settle : StateM (Guarded ω) Unit := fun g =>
  let (signals, w) := k.arrived g.world
  ((), ⟨g.signals.raiseAll signals, w⟩)

def catchSignals : StateM (Guarded ω) SignalHandler := do
  k.settle
  modifyGet fun g => let (handler, t) := g.signals.install; (handler, { g with signals := t })

def releaseSignals (handler : SignalHandler) : StateM (Guarded ω) Unit := do
  k.settle
  modify fun g => { g with signals := g.signals.restore handler }

def takeSignal : StateM (Guarded ω) (Option TerminationSignal) := do
  k.settle
  modifyGet fun g => let (signal, t) := g.signals.take; (signal, { g with signals := t })

/-- Waits for the worker and passes on every signal caught meanwhile. After `looks` looks at a worker that goes on
running the answer is `none`. -/
def waitForwarding (worker : Worker) : Nat → StateM (Guarded ω) (Option (Except MountError WaitStatus))
  | 0 => return none
  | looks + 1 => do
    if let some signal ← k.takeSignal then
      let _ ← guarded (k.kill worker.pid (some signal.toSignal))
    match ← guarded (k.tryWait worker) with
    | .error e => return some (.error e)
    | .ok status =>
      match status.filter WaitStatus.hasEnded with
      | some status => return some (.ok status)
      | none =>
        guarded fun w => ((), k.sleep forwardStep w)
        waitForwarding worker looks

end Kernel
end BucketMount
