import BucketMount.Credentials
import BucketMount.Environment
import BucketMount.Error
import BucketMount.Process.Basic
import BucketMount.SignalTable

/-!
# The operating system

The operations that the program asks of the system, on a state `ω` of everything around it. As for other processes
nothing is assumed about the answers, beyond the clock, the length of what a pipe delivers, and that a blocking call
comes back early only so many times (`Kernel.interruptions`).

A worker is a copy of the program that runs to its end, or until another program takes its place, before the program
itself does anything the worker could see: `Kernel.fork` goes on as the worker, `Kernel.leave` comes back.
-/

namespace BucketMount

structure FileInfo where
  device : Nat
  inode : Nat
  isDirectory : Bool
  owner : Nat
deriving DecidableEq, Repr

/-- What can be done to files by a process with given credentials. -/
structure Files (ω : Type) where
  /-- The file at a path; symbolic links are followed. -/
  stat : Credentials → Bytes → StateM ω (Except Errno FileInfo)
  /-- Creates a directory. -/
  makeDir : Credentials → Bytes → Nat → StateM ω (Except Errno Unit)
  /-- Opens a directory and asks for its first entry. An error is one of the opening: what goes wrong when the entry is
  read counts as an entry. -/
  hasEntries : Credentials → Bytes → StateM ω (Except Errno Bool)
  /-- Whether the process may write to a file. -/
  canWrite : Credentials → Bytes → StateM ω Bool

abbrev Pipe := Nat

/-- How a worker leaves its own code. -/
inductive Ending where
  /-- It ends with a code. -/
  | exits (code : Nat)
  /-- It kills itself with the signal of this number. -/
  | dies (number : Nat)
  /-- Another program has taken its place, or it goes on by itself. -/
  | runs
deriving DecidableEq, Repr

structure Kernel (ω : Type) extends Processes ω, Files ω where
  /-- Whom the program itself acts for. -/
  credentials : ω → Credentials
  /-- The rules for changing credentials. -/
  idRules : IdRules
  /-- The accounts of users. -/
  account : Nat → Option Account
  environment : ω → Environment
  workingDirectory : ω → Bytes
  readFile : Bytes → StateM ω (Except FileFault Bytes)
  /-- Writes to the standard output. -/
  print : Bytes → StateM ω Unit
  /-- Writes to the standard error output. -/
  printError : Bytes → StateM ω Unit
  /-- Opens a pipe. -/
  openPipe : StateM ω (Except Errno Pipe)
  /-- Closes the writing end that the program itself holds. -/
  closeWriter : Pipe → StateM ω Unit
  /-- Writes to a pipe and says how much was taken. -/
  write : Pipe → Bytes → StateM ω (Except Errno Nat)
  /-- Reads up to so many bytes from a pipe; no bytes mean its end. -/
  read : Pipe → Nat → StateM ω (Except Errno Bytes)
  /-- Starts a worker and goes on as the worker. -/
  fork : StateM ω (Except Errno Pid)
  /-- The worker with this number leaves; goes on as the program. -/
  leave : Pid → Ending → StateM ω Unit
  /-- Lets a program take the place of the worker; answers only if that fails. -/
  exec : Credentials → List Bytes → List Bytes → StateM ω (Option Errno)
  /-- Lets the worker's output go into a pipe. -/
  redirect : Pipe → StateM ω (Except Errno Unit)
  /-- Waits for a child. -/
  await : Pid → StateM ω (Except Errno WaitStatus)
  /-- Starts a program that reads from a pipe. -/
  startReader : List Bytes → Pipe → StateM ω (Except LaunchFault Pid)
  /-- Runs a program to its end. -/
  run : List Bytes → StateM ω (Except LaunchFault ProcessEnd)
  /-- The termination signals that have arrived since the last question. -/
  arrived : StateM ω (List TerminationSignal)
  /-- How many more times a blocking call can come back early. -/
  interruptions : ω → Nat
  length_read : ∀ pipe n w bytes, (read pipe n w).1 = .ok bytes → bytes.length ≤ n
  interrupted_write : ∀ pipe bytes w, (write pipe bytes w).1 = .error .eintr →
    interruptions (write pipe bytes w).2 < interruptions w
  interrupted_read : ∀ pipe n w, (read pipe n w).1 = .error .eintr →
    interruptions (read pipe n w).2 < interruptions w
  interrupted_await : ∀ pid w,
    ((await pid w).1 = .error .eintr ∨ ∃ s, (await pid w).1 = .ok s ∧ s.hasEnded = false) →
      interruptions (await pid w).2 < interruptions w
  monotone_stat : ∀ c path, toClock.Monotone (stat c path)
  monotone_openPipe : toClock.Monotone openPipe
  monotone_write : ∀ pipe bytes, toClock.Monotone (write pipe bytes)
  monotone_fork : toClock.Monotone fork
  monotone_leave : ∀ pid ending, toClock.Monotone (leave pid ending)
  monotone_await : ∀ pid, toClock.Monotone (await pid)

end BucketMount
