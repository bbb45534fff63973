import BucketMount.Kernel
import BucketMount.Machine.FileSystem
import BucketMount.Machine.ProcessTable

/-!
# A machine

A complete small host, on which the program can be run and reasoned about: files, processes, pipes, a clock, and what
the program itself is given by those who start it. Everything about it is determined; time passes only in waiting.
-/

namespace BucketMount

/-- A pipe: what has been written and not been read, and the command that reads it, if it waits for the end. -/
structure PipeState where
  buffer : Bytes
  reader : Option (Pid × List Bytes)
deriving DecidableEq, Repr

/-- Everything around the program, and the program's own attributes. -/
structure Machine where
  clock : Nat
  /-- How long a signal takes to have its effect. -/
  latency : Duration
  /-- How much longer than asked a sleep takes. -/
  slack : Duration
  files : FileSystem
  processes : ProcessTable
  /-- The number of the program. -/
  self : Pid
  nextPid : Pid
  pipes : List (Pipe × PipeState)
  nextPipe : Pipe
  credentials : Credentials
  environment : Environment
  workingDirectory : Bytes
  /-- The permission bits that new files do not get. -/
  mask : Nat
  out : Bytes
  err : Bytes
  /-- The termination signals that are on their way to the program. -/
  arrived : List TerminationSignal
  /-- The shells at work, each with the signals that have been sent to it and when. -/
  shells : List (Pid × List (Nat × Nat))

namespace Machine

def pipe? (m : Machine) (p : Pipe) : Option PipeState := m.pipes.lookup p

def updatePipe (m : Machine) (p : Pipe) (f : PipeState → PipeState) : Machine :=
  { m with pipes := m.pipes.map fun (q, s) => if q = p then (q, f s) else (q, s) }

/-- The directory in which relative paths start. -/
def here (m : Machine) : Nat :=
  match m.files.find m.credentials true m.files.root m.workingDirectory with
  | .ok (id, _) => id
  | .error _ => m.files.root

/-- The path of the directory in which relative paths start, without links. A directory that the machine does not have
keeps the name that was given for it. -/
def workingPath (m : Machine) : Bytes :=
  match m.files.find m.credentials true m.files.root m.workingDirectory with
  | .ok (id, _) => m.files.realPath id
  | .error _ => m.workingDirectory

def spawn (m : Machine) (a : Actor) : Pid × Machine :=
  (m.nextPid, { m with processes := m.processes ++ [(m.nextPid, a)], nextPid := m.nextPid + 1 })

def changeFiles (m : Machine) (r : Except Errno FileSystem) : Except Errno Unit × Machine :=
  match r with
  | .ok files => (.ok (), { m with files := files })
  | .error e => (.error e, m)

def pass (d : Duration) (m : Machine) : Machine := { m with clock := m.clock + d }

def sleep (d : Duration) (m : Machine) : Machine := m.pass (d + m.slack)

theorem clock_pass (d : Duration) (m : Machine) : (m.pass d).clock = m.clock + d := rfl

theorem clock_sleep (d : Duration) (m : Machine) : m.clock + d ≤ (m.sleep d).clock := by
  simp only [sleep, clock_pass]
  omega

inductive Companion where
  /-- A number without a process. -/
  | absent
  /-- A process that goes on until a signal ends it. -/
  | lasting (isChild ignoresTerm : Bool)
  /-- A child that has ended and has not been reaped. -/
  | ended (how : ProcessEnd)
  /-- A child that ends by itself after some time. -/
  | ending (time : Duration) (how : ProcessEnd)
deriving DecidableEq, Repr

/-- Puts a process beside the program and answers its number. -/
def accompany (c : Companion) : StateM Machine Pid := fun m =>
  match c with
  | .absent => (m.nextPid, { m with nextPid := m.nextPid + 1 })
  | .lasting isChild ignoresTerm => m.spawn ⟨isChild, ignoresTerm, none, false⟩
  | .ended how => m.spawn ⟨true, false, some (m.clock, how), false⟩
  | .ending time how => m.spawn ⟨true, false, some (m.clock + time, how), false⟩

end Machine
end BucketMount
