import BucketMount.Machine.Basic
import BucketMount.Text.Utf8

/-!
# Tasks

A program at work on a machine: who runs it, and what its descriptors stand for. Whatever it writes reaches the
machine at once. A file that is read from is a pipe that has been filled with its content.
-/

namespace BucketMount

inductive Stream where
  | nowhere
  | out
  | err
  | file (id : Nat)
  | pipe (p : Pipe)
  /-- A file that takes nothing. -/
  | full
deriving DecidableEq, Repr

abbrev Streams := List (Nat × Stream)

namespace Streams

/-- The streams of a program whose output is the machine's. -/
def usual : Streams := [(0, .nowhere), (1, .out), (2, .err)]

/-- What a descriptor stands for, if for anything. -/
def get (s : Streams) (descriptor : Nat) : Stream := (s.lookup descriptor).getD .nowhere

def put (s : Streams) (descriptor : Nat) (stream : Stream) : Streams := (descriptor, stream) :: s

end Streams

structure Task where
  machine : Machine
  caller : Credentials
  streams : Streams
  /-- The name by which the program was called. -/
  name : Text
  status : Nat

namespace Task

def onMachine (t : Task) (f : Machine → Machine) : Task := { t with machine := f t.machine }

def withStatus (t : Task) (n : Nat) : Task := { t with status := n }

def ofBool (b : Bool) : Nat := if b then 0 else 1

def emitBytes (t : Task) (stream : Stream) (bytes : Bytes) : Task :=
  t.onMachine fun m =>
    match stream with
    | .nowhere | .full => m
    | .out => { m with out := m.out ++ bytes }
    | .err => { m with err := m.err ++ bytes }
    | .pipe p => m.updatePipe p fun s => { s with buffer := s.buffer ++ bytes }
    | .file id =>
      { m with
        files := m.files.update id fun n =>
          match n.kind with
          | .regular old => { n with kind := .regular (old ++ bytes) }
          | _ => n }

def emit (t : Task) (descriptor : Nat) (text : Text) : Task :=
  t.emitBytes (t.streams.get descriptor) (Text.toUtf8 text)

def canPrint (t : Task) : Bool := (t.streams.lookup 1).any (· ≠ .full)

def say (t : Task) (text : Text) : Task := t.emit 1 (text ++ ['\n'])

def complain (t : Task) (text : Text) : Task := t.emit 2 (text ++ ['\n'])

def input (t : Task) : Bytes :=
  match t.streams.get 0 with
  | .pipe p => (t.machine.pipe? p).elim [] PipeState.buffer
  | _ => []

def consume (t : Task) (n : Nat) : Task :=
  match t.streams.get 0 with
  | .pipe p => t.onMachine (·.updatePipe p fun s => { s with buffer := s.buffer.drop n })
  | _ => t

def drain (t : Task) : Bytes × Task := (t.input, t.consume t.input.length)

def openPipe (t : Task) (bytes : Bytes) : Pipe × Task :=
  (t.machine.nextPipe, t.onMachine fun m =>
    { m with pipes := m.pipes ++ [(m.nextPipe, ⟨bytes, none⟩)], nextPipe := m.nextPipe + 1 })

/-- What has been written to a pipe; the pipe is gone after that. -/
def closePipe (t : Task) (p : Pipe) : Bytes × Task :=
  ((t.machine.pipe? p).elim [] PipeState.buffer,
    t.onMachine fun m => { m with pipes := m.pipes.filter (·.1 ≠ p) })

def content (t : Task) (path : Text) : Except Errno Bytes :=
  t.machine.files.content t.caller t.machine.here (Text.toUtf8 path)

def find (t : Task) (follow : Bool) (path : Text) : Except Errno (Nat × Node) :=
  t.machine.files.find t.caller follow t.machine.here (Text.toUtf8 path)

/-- Files that are streams of the task or swallow everything. -/
def deviceAt? (t : Task) (path : Text) : Option Stream :=
  if path = "/dev/null".toList then some .nowhere
  else if path = "/dev/full".toList then some .full
  else if path = "/dev/stdin".toList then some (t.streams.get 0)
  else if path = "/dev/stdout".toList then some (t.streams.get 1)
  else if path = "/dev/stderr".toList then some (t.streams.get 2)
  else none

/-- Opens a file for writing; it is made, or emptied unless its content is to be kept. -/
def openToWrite (t : Task) (path : Text) (keep : Bool) : Except Errno (Stream × Task) :=
  match t.deviceAt? path with
  | some stream => .ok (stream, t)
  | none => do
    let m := t.machine
    let files ← m.files.writeFile t.caller m.mask m.here (Text.toUtf8 path) keep []
    let t := t.onMachine fun m => { m with files := files }
    let (id, _) ← t.find true path
    return (.file id, t)

def openToRead (t : Task) (path : Text) : Except Errno (Stream × Task) :=
  match t.deviceAt? path with
  | some stream => .ok (stream, t)
  | none => do
    let bytes ← match t.content path with
      | .error .eisdir => .ok []
      | r => r
    let (p, t) := t.openPipe bytes
    return (.pipe p, t)

end Task
end BucketMount
