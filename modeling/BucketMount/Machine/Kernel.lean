import BucketMount.Machine.Launch

/-!
# A machine as an operating system

The operations of the system on a machine. Nothing interrupts a blocking call on a machine, and time passes only where
something waits.
-/

namespace BucketMount.Machine

def infoOf (id : Nat) (n : Node) : FileInfo := ⟨n.device, id, n.isDirectory, n.owner⟩

def actorOf (m : Machine) (finish : Finish) : Actor :=
  ⟨true, false, some (m.clock + finish.time, finish.how), false⟩

def stat (c : Credentials) (path : Bytes) : StateM Machine (Except Errno FileInfo) := fun m =>
  ((m.files.find c true m.here path).map fun (id, n) => infoOf id n, m)

def kill (pid : Pid) (signal : Option Signal) : StateM Machine (Except Errno Unit) := fun m =>
  let (answer, t) := m.processes.kill m.clock m.latency pid (signal.map Signal.number)
  (answer, { m with processes := t })

def poll (pid : Pid) : StateM Machine (Except Errno WaitStatus) := fun m =>
  let (answer, t) := m.processes.poll m.clock pid
  (answer, { m with processes := t })

/-- The machine at the time when a child will have ended, if that is settled. -/
def passUntilEnd (m : Machine) (pid : Pid) : Machine :=
  match m.processes.endTime? m.clock pid with
  | some time => m.pass (time - m.clock)
  | none => m

/-- The answer to a wait; one that would never end is refused. -/
def finalAnswer : Except Errno WaitStatus → Except Errno WaitStatus
  | .ok status => if status.hasEnded then .ok status else .error .edeadlk
  | .error .eintr => .error .echild
  | .error e => .error e

def await (pid : Pid) : StateM Machine (Except Errno WaitStatus) := fun m =>
  let (answer, m) := poll pid (m.passUntilEnd pid)
  (finalAnswer answer, m)

def openPipe : StateM Machine (Except Errno Pipe) := fun m =>
  (.ok m.nextPipe, { m with pipes := m.pipes ++ [(m.nextPipe, ⟨[], none⟩)], nextPipe := m.nextPipe + 1 })

def write (p : Pipe) (bytes : Bytes) : StateM Machine (Except Errno Nat) := fun m =>
  (.ok bytes.length, m.updatePipe p fun s => { s with buffer := s.buffer ++ bytes })

def read (p : Pipe) (n : Nat) : StateM Machine (Except Errno Bytes) := fun m =>
  (.ok (((m.pipe? p).elim [] PipeState.buffer).take n), m.updatePipe p fun s => { s with buffer := s.buffer.drop n })

/-- Closes the writing end of a pipe; what reads from it then comes to its end. -/
def closeWriter (p : Pipe) : StateM Machine Unit := fun m =>
  match (m.pipe? p).bind PipeState.reader with
  | none => ((), m)
  | some (pid, words) =>
    match m.launch m.credentials pid (.pipe p) words with
    | .error _ => ((), m)
    | .ok (finish, m) =>
      let actor := m.actorOf finish
      let m := m.updatePipe p fun s => { s with reader := none }
      ((), { m with processes := m.processes.update pid fun _ => actor })

def startReader (words : List Bytes) (p : Pipe) : StateM Machine (Except LaunchFault Pid) := fun m =>
  match m.launchFault? m.credentials words with
  | some fault => (.error fault, m)
  | none =>
    let (pid, m) := m.spawn ⟨true, false, none, false⟩
    (.ok pid, m.updatePipe p fun s => { s with reader := some (pid, words) })

def run (words : List Bytes) : StateM Machine (Except LaunchFault ProcessEnd) := fun m =>
  match { m with nextPid := m.nextPid + 1 }.launch m.credentials m.nextPid .nowhere words with
  | .error fault => (.error fault, m)
  | .ok (finish, m) => (.ok finish.how, m.pass finish.time)

/-- Starts a worker; until it leaves, it is the only one that acts. -/
def fork : StateM Machine (Except Errno Pid) := fun m =>
  let (pid, m) := m.spawn ⟨true, false, none, false⟩
  (.ok pid, m)

/-- The worker leaves. One whose place another program has taken ends with that program. -/
def leave (pid : Pid) (ending : Ending) : StateM Machine Unit := fun m =>
  let settle (how : ProcessEnd) : Machine :=
    { m with processes := m.processes.update pid ({ · with ending := some (m.clock, how) }) }
  match ending with
  | .exits code => ((), settle (.exited (code % 256)))
  | .dies number => ((), settle (.signaled number))
  | .runs => ((), m)

/-- The worker that is acting: the process that was started last. -/
def acting (m : Machine) : Pid := m.nextPid - 1

/-- Gives the place of the worker that is acting to a program. A file that does not say what runs it is given to the
shell. -/
def exec (c : Credentials) (words _env : List Bytes) : StateM Machine (Option Errno) := fun m =>
  let run : Option Errno × Machine :=
    let (finish, after) := m.start c m.acting .nowhere words
    (none, { after with processes := after.processes.update m.acting fun _ => m.actorOf finish })
  match m.launchFault? c words with
  | none | some (.system .enoexec) => run
  | some (.system e) => (some e, m)
  | some _ => (some .einval, m)

def readFile (path : Bytes) : StateM Machine (Except FileFault Bytes) := fun m =>
  (if Environment.nul ∈ path then .error .nulInName
    else (m.files.content m.credentials m.here path).mapError .system, m)

theorem clock_leave (pid : Pid) (ending : Ending) (m : Machine) : (leave pid ending m).2.clock = m.clock := by
  cases ending <;> rfl

theorem clock_passUntilEnd (m : Machine) (pid : Pid) : m.clock ≤ (m.passUntilEnd pid).clock := by
  unfold passUntilEnd
  split
  · exact Nat.le_add_right _ _
  · exact Nat.le_refl _

theorem clock_await (pid : Pid) (m : Machine) : m.clock ≤ (await pid m).2.clock :=
  clock_passUntilEnd m pid

theorem finalAnswer_ne_eintr (answer : Except Errno WaitStatus) : finalAnswer answer ≠ .error .eintr := by
  unfold finalAnswer
  split
  · split <;> simp
  · simp
  · simp_all

theorem hasEnded_of_finalAnswer {answer : Except Errno WaitStatus} {s : WaitStatus}
    (h : finalAnswer answer = .ok s) : s.hasEnded = true := by
  unfold finalAnswer at h
  split at h
  · split at h
    · cases h
      assumption
    · cases h
  · cases h
  · cases h

def kernel (rules : IdRules) (account : Nat → Option Account) : Kernel Machine where
  now := Machine.clock
  sleep := sleep
  now_sleep := clock_sleep
  kill := kill
  poll := poll
  monotone_kill _ _ _ := Nat.le_refl _
  monotone_poll _ _ := Nat.le_refl _
  stat := stat
  makeDir c path mode := fun m => m.changeFiles (m.files.makeDir c m.mask m.here path mode)
  hasEntries c path := fun m => (m.files.hasEntries c m.here path, m)
  canWrite c path := fun m => (m.files.canWrite c m.here path, m)
  credentials := Machine.credentials
  idRules := rules
  account := account
  environment := Machine.environment
  workingDirectory := workingPath
  readFile := readFile
  print bytes := modify fun m => { m with out := m.out ++ bytes }
  printError bytes := modify fun m => { m with err := m.err ++ bytes }
  openPipe := openPipe
  closeWriter := closeWriter
  write := write
  read := read
  fork := fork
  leave := leave
  exec := exec
  redirect _ := pure (.ok ())
  await := await
  startReader := startReader
  run := run
  arrived := modifyGet fun m => (m.arrived, { m with arrived := [] })
  interruptions _ := 0
  length_read p n m bytes h := by
    have : bytes = ((m.pipe? p).elim [] PipeState.buffer).take n := by
      simpa [read] using h.symm
    rw [this]
    exact List.length_take_le _ _
  interrupted_write p bytes m h := by simp [write] at h
  interrupted_read p n m h := by simp [read] at h
  interrupted_await pid m h := by
    rcases h with h | ⟨s, h, hs⟩
    · exact absurd h (finalAnswer_ne_eintr _)
    · rw [hasEnded_of_finalAnswer h] at hs
      cases hs
  monotone_stat _ _ _ := Nat.le_refl _
  monotone_openPipe _ := Nat.le_refl _
  monotone_write _ _ _ := Nat.le_refl _
  monotone_fork _ := Nat.le_refl _
  monotone_leave pid ending m := Nat.le_of_eq (clock_leave pid ending m).symm
  monotone_await pid m := clock_await pid m

end BucketMount.Machine
