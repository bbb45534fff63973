import BucketMount.Proofs.Hooks.Setup
import BucketMount.Proofs.Recorder
import BucketMount.Proofs.Worker.Rules

/-!
# Journals

What the program asked of a back end and of the system, in the order in which
it was asked: a record of all that has to do with mounts, with processes and
with signals (`Kernel.journaled`, `Backend.journaled`). The last journal of a run
says what the run did.
-/

namespace BucketMount

/-- Something that was asked, with the answer where one matters. -/
inductive Event where
  /-- The back end was asked for a mount. -/
  | asked (x : Exchange)
  /-- The back end was asked to detach a path. -/
  | detached (path : Bytes) (answer : Except MountError Unit)
  /-- A process was started, by a fork or with a program to run. -/
  | forked (pid : Pid)
  /-- A worker asked for another program to take its place. -/
  | executed (args : List Bytes)
  /-- A child was waited for or asked after. -/
  | waited (pid : Pid) (answer : Except Errno WaitStatus)
  /-- A signal was sent, or without one it was asked whether one could be. -/
  | signalled (pid : Pid) (signal : Option Signal)
  /-- These termination signals had arrived. -/
  | arrived (signals : List TerminationSignal)
deriving DecidableEq

/-- What was asked, the earliest first. -/
abbrev Journal := List Event

/-- The journal of a process that may have been started. -/
def Event.ofStart {ε : Type} : Except ε Pid → Journal
  | .ok pid => [.forked pid]
  | .error _ => []

/-- The back end with a journal. -/
def Backend.journaled {ω : Type} (b : Backend ω) : Backend (Journal × ω) where
  name := b.name
  mount d id := noting (fun answer => [.asked ⟨d, answer⟩]) (b.mount d id)
  unmount path := noting (fun answer => [.detached path answer]) (b.unmount path)

/-- The processes with a journal. -/
def Processes.journaled {ω : Type} (os : Processes ω) : Processes (Journal × ω) :=
  { os.beside Journal with
    kill := fun pid signal => noting (fun _ => [.signalled pid signal]) (os.kill pid signal)
    poll := fun pid => noting (fun answer => [.waited pid answer]) (os.poll pid)
    monotone_kill := fun pid signal s => os.monotone_kill pid signal s.2
    monotone_poll := fun pid s => os.monotone_poll pid s.2 }

/-- The system with a journal. -/
def Kernel.journaled {ω : Type} (k : Kernel ω) : Kernel (Journal × ω) :=
  { k.alongside Journal with
    toProcesses := k.toProcesses.journaled
    fork := noting Event.ofStart k.fork
    exec := fun caller args env => noting (fun _ => [.executed args]) (k.exec caller args env)
    await := fun pid => noting (fun answer => [.waited pid answer]) (k.await pid)
    startReader := fun words pipe => noting Event.ofStart (k.startReader words pipe)
    arrived := noting (fun signals => [.arrived signals]) k.arrived
    interrupted_await := fun pid s => k.interrupted_await pid s.2
    monotone_fork := fun s => k.monotone_fork s.2
    monotone_await := fun pid s => k.monotone_await pid s.2 }

section Rules

variable {ω α : Type} {P : Journal → Prop}

theorem keeps_beside (op : StateM ω α) :
    Keeps (fun s => P s.1) (beside op : StateM (Journal × ω) α) :=
  fun _ hs => hs

/-- What has nothing to do with other processes is not written down. -/
theorem Kernel.quiet_journaled (k : Kernel ω) (P : Journal → Prop) :
    k.journaled.Quiet fun s => P s.1 where
  sleep _ _ hs := hs
  stat _ _ := keeps_beside _
  makeDir _ _ _ := keeps_beside _
  hasEntries _ _ := keeps_beside _
  canWrite _ _ := keeps_beside _
  printError _ := keeps_beside _
  openPipe := keeps_beside _
  closeWriter _ := keeps_beside _
  write _ _ := keeps_beside _
  read _ _ := keeps_beside _
  leave _ _ := keeps_beside _
  redirect _ := keeps_beside _
  run _ := keeps_beside _

end Rules

/-! ## What an operation adds -/

/-- The later journal has some more events, all of one kind. -/
def Journal.Grows (j : Journal) (kind : Event → Prop) (j' : Journal) : Prop :=
  ∃ events, j' = j ++ events ∧ ∀ e ∈ events, kind e

theorem Journal.Grows.refl {kind : Event → Prop} {j : Journal} : j.Grows kind j :=
  ⟨[], (List.append_nil j).symm, by simp⟩

theorem Journal.Grows.snoc {kind : Event → Prop} {j j' : Journal} {e : Event}
    (h : j.Grows kind j') (he : kind e) : j.Grows kind (j' ++ [e]) := by
  obtain ⟨events, rfl, hevents⟩ := h
  refine ⟨events ++ [e], List.append_assoc j events [e], ?_⟩
  simpa [or_imp, forall_and] using ⟨hevents, he⟩

/-- What lets the journal grow only by one kind of events adds such events. -/
theorem Logs.of_grows {σ α : Type} {journal : σ → Journal} {op : StateM σ α} {kind : Event → Prop}
    (h : ∀ j, Keeps (fun s => Journal.Grows j kind (journal s)) op) :
    Logs journal op fun _ events => ∀ e ∈ events, kind e :=
  fun s => h (journal s) s .refl

end BucketMount
