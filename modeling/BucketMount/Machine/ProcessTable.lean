import BucketMount.Process.Status

/-!
# A table of processes

Processes run until they end by themselves or die of a signal, some of them ignoring SIGTERM. A signal takes a moment
to have its effect. A child that has ended stays in the table until it is reaped; any other process disappears when it
ends.
-/

namespace BucketMount

structure Actor where
  /-- Whether it is a child of the program. -/
  isChild : Bool
  ignoresTerm : Bool
  /-- When and how it ends, as far as that is settled. -/
  ending : Option (Nat × ProcessEnd)
  reaped : Bool
deriving DecidableEq, Repr

namespace Actor

/-- How the process has ended, if it has by now. -/
def ended? (a : Actor) (now : Nat) : Option ProcessEnd :=
  match a.ending with
  | some (time, how) => if time ≤ now then some how else none
  | none => none

/-- Whether there is still something that can be asked after or be sent a signal. -/
def exists? (a : Actor) (now : Nat) : Bool := !a.reaped && (a.isChild || (a.ended? now).isNone)

def diesOf (a : Actor) (number : Nat) : Bool :=
  Signal.actionOfNumber number = .terminate && !(number = Signal.term.number && a.ignoresTerm)

/-- The process after the signal of a number that takes effect at a given time. -/
def afterSignal (a : Actor) (time number : Nat) : Actor :=
  if ¬a.diesOf number then a
  else
    match a.ending with
    | some (t, _) => if t ≤ time then a else { a with ending := some (time, .signaled number) }
    | none => { a with ending := some (time, .signaled number) }

end Actor

abbrev ProcessTable := List (Pid × Actor)

namespace ProcessTable

/-- The process with a number, if it can still be asked after. -/
def actor? (t : ProcessTable) (now : Nat) (pid : Pid) : Option Actor :=
  (t.lookup pid).filter (·.exists? now)

def update (t : ProcessTable) (pid : Pid) (f : Actor → Actor) : ProcessTable :=
  t.map fun (p, a) => if p = pid then (p, f a) else (p, a)

/-- Sends the signal of a number, which takes effect after a moment; without one, only asks whether that would be
possible. -/
def kill (t : ProcessTable) (now latency : Nat) (pid : Pid) (number : Option Nat) :
    Except Errno Unit × ProcessTable :=
  match t.actor? now pid with
  | none => (.error .esrch, t)
  | some _ => (.ok (), number.elim t fun n => t.update pid (·.afterSignal (now + latency) n))

/-- Asks after a child without waiting, and reaps it if it has ended. -/
def poll (t : ProcessTable) (now : Nat) (pid : Pid) : Except Errno WaitStatus × ProcessTable :=
  match (t.actor? now pid).filter Actor.isChild with
  | none => (.error .echild, t)
  | some a =>
    match a.ended? now with
    | some how => (how.status, t.update pid ({ · with reaped := true }))
    | none => (.ok .running, t)

/-- When a child will have ended, if that is settled. -/
def endTime? (t : ProcessTable) (now : Nat) (pid : Pid) : Option Nat :=
  ((t.actor? now pid).filter Actor.isChild).bind fun a => a.ending.map Prod.fst

end ProcessTable
end BucketMount
