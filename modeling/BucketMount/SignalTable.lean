import BucketMount.Signal

/-!
# Termination signals

While a step runs, SIGINT, SIGTERM and SIGHUP are caught: the last one is kept until it is taken. Handlers nest. Each
one remembers the arrangements that it replaced, and giving it up brings them back. `SignalScope` is a process with the
handlers that it holds, and `SignalScope.run` what becomes of it when handlers come and go and signals arrive.
-/

namespace BucketMount

/-- A signal that asks the whole step to end. -/
inductive TerminationSignal where
  | int
  | term
  | hup
deriving DecidableEq, Repr

namespace TerminationSignal

/-- All of them, in the order in which they are caught. -/
def all : List TerminationSignal := [int, term, hup]

def toSignal : TerminationSignal → Signal
  | int => .int
  | term => .term
  | hup => .hup

def ofSignal? : Signal → Option TerminationSignal
  | .int => some int
  | .term => some term
  | .hup => some hup
  | _ => none

end TerminationSignal

inductive Disposition where
  /-- What the system does without any arrangement. -/
  | standard
  | ignored
  /-- The signal is kept until it is taken. -/
  | caught
  /-- Someone else's arrangement. -/
  | foreign (id : Nat)
deriving DecidableEq, Repr

def Disposition.outlives (d : Disposition) (s : TerminationSignal) : Bool :=
  d ≠ .standard || s.toSignal.defaultAction ≠ .terminate

/-- What happens with each signal, and the last one that was caught and has not been taken. -/
structure SignalTable where
  dispositions : TerminationSignal → Disposition
  pending : Option TerminationSignal

/-- An installed handler: the arrangements that it replaced. -/
structure SignalHandler where
  previous : TerminationSignal → Disposition

namespace SignalTable

def uniform (d : Disposition) : SignalTable := ⟨fun _ => d, none⟩

/-- Catches the three signals from now on and forgets what was caught before. -/
def install (t : SignalTable) : SignalHandler × SignalTable :=
  (⟨t.dispositions⟩, ⟨fun _ => .caught, none⟩)

/-- Brings back what a handler replaced. -/
def restore (handler : SignalHandler) (t : SignalTable) : SignalTable :=
  { t with dispositions := handler.previous }

/-- The arrival of a signal, as far as it leaves the process running. -/
def raise (t : SignalTable) (s : TerminationSignal) : SignalTable :=
  if t.dispositions s = .caught then { t with pending := some s } else t

def raiseAll (t : SignalTable) (signals : List TerminationSignal) : SignalTable := signals.foldl raise t

/-- The signal that was caught last, if it has not been taken yet. -/
def take (t : SignalTable) : Option TerminationSignal × SignalTable :=
  (t.pending, { t with pending := none })

end SignalTable

inductive SignalCall where
  /-- A handler is installed. -/
  | install
  /-- The newest handler is given up. -/
  | drop
  /-- The newest handler is asked for the signal that was caught last. -/
  | take
  /-- A signal arrives. -/
  | raise (s : TerminationSignal)
deriving DecidableEq, Repr

/-- A process with its handlers, the newest first. -/
structure SignalScope where
  handlers : List SignalHandler
  table : SignalTable

namespace SignalScope

/-- One call, with the answer if it asks for a signal. Nothing comes of it when there is no handler to give up or to
ask, and when the signal ends the process. -/
def perform (p : SignalScope) : SignalCall → Option (Option TerminationSignal × SignalScope)
  | .install =>
    let (handler, t) := p.table.install
    some (none, ⟨handler :: p.handlers, t⟩)
  | .drop =>
    match p.handlers with
    | [] => none
    | handler :: older => some (none, ⟨older, p.table.restore handler⟩)
  | .take =>
    match p.handlers with
    | [] => none
    | _ :: _ =>
      let (answer, t) := p.table.take
      some (answer, ⟨p.handlers, t⟩)
  | .raise s =>
    if (p.table.dispositions s).outlives s then some (none, ⟨p.handlers, p.table.raise s⟩) else none

def run (calls : List SignalCall) (p : SignalScope) : Option SignalScope :=
  calls.foldlM (fun p call => (p.perform call).map Prod.snd) p

end SignalScope
end BucketMount
