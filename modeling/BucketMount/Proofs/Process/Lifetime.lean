import BucketMount.Proofs.Dictation
import BucketMount.Proofs.Hooks.Ledger
import BucketMount.Proofs.Process.Reaping

/-!
# The processes of a whole run

A run mounts, remembers what it has mounted, undoes what it remembers, starts
commands and passes signals on to them, in any order and as often as it likes.
Between two deeds `Hands` says which processes the program still has: those of
mounts that nobody remembers yet, those of the mounts of the tracker, and the
commands that have not ended. Each deed takes them from one custody to the
next (`keeps_perform`), so through the whole run a process that has been reaped
is left alone (`reaped_left_alone`).
-/

namespace BucketMount

/-- What is done next. -/
inductive Deed where
  | mount (c : Config) (d : Directive) (id : Identity)
  /-- The mount at this place of those made is remembered. -/
  | register (n : Nat)
  /-- The mounts that are remembered are undone. -/
  | teardown (c : Config)
  | start (id : Identity) (args env : List Bytes)
  /-- The command at this place of those started is waited for, and signals
  are passed on to it; after so many looks it may still be running. -/
  | follow (n : Nat) (looks : Nat)

/-- What the program has in hand between two deeds. -/
structure Hands where
  /-- The mounts that were made and are not remembered yet. -/
  made : List MountRecord
  tracker : Tracker
  /-- The commands that have not ended. -/
  commands : List Worker

namespace Hands

def empty (grace : Duration) : Hands := ⟨[], .empty grace, []⟩

/-- All the processes in hand. -/
def processes (hands : Hands) : List Pid :=
  (hands.made ++ hands.tracker.records).flatMap MountRecord.processes ++
    hands.commands.map Worker.pid

/-- After the back end has answered. -/
def mounted (hands : Hands) (x : Exchange) : Hands :=
  { hands with made := hands.made ++ x.record?.toList }

/-- After one of the mounts is remembered. -/
def remembered (hands : Hands) (n : Nat) : Hands :=
  match hands.made[n]? with
  | none => hands
  | some r => { hands with made := hands.made.eraseIdx n, tracker := hands.tracker.register r }

/-- After a command was started, or could not be. -/
def started (hands : Hands) : Except MountError Worker → Hands
  | .ok worker => { hands with commands := worker :: hands.commands }
  | .error _ => hands

/-- After one of the commands was waited for. -/
def followed (hands : Hands) (n : Nat) : Option (Except MountError WaitStatus) → Hands
  | none => hands
  | some _ => { hands with commands := hands.commands.eraseIdx n }

end Hands

namespace Kernel

variable {ω : Type}

/-- Does a deed. -/
def perform (k : Kernel ω) : Deed → StateM (Hands × Guarded ω) Unit
  | .mount c d id => fun (hands, g) =>
    let (answer, g) := guarded (k.mount c d id) g
    ((), hands.mounted ⟨d, answer⟩, g)
  | .register n => fun (hands, g) => ((), hands.remembered n, g)
  | .teardown c => fun (hands, g) =>
    let ((_, t), g) :=
      guarded (Hooks.stepTeardown (k.helperBackend c) k.toProcesses hands.tracker) g
    ((), { hands with tracker := t }, g)
  | .start id args env => fun (hands, g) =>
    let (answer, g) := guarded (k.spawnAs id (k.commandBody args env)) g
    ((), hands.started answer, g)
  | .follow n looks => fun (hands, g) =>
    match hands.commands[n]? with
    | none => ((), hands, g)
    | some worker =>
      let (answer, g) := k.waitForwarding worker looks g
      ((), hands.followed n answer, g)

/-- What a run asks of the system, from empty hands. -/
def journalOf (k : Kernel ω) (deeds : List Deed) (grace : Duration) (signals : SignalTable)
    (w : ω) : Journal :=
  (deeds.mapM k.journaled.perform (Hands.empty grace, ⟨signals, [], w⟩)).2.2.world.1

end Kernel

/-! ## One deed -/

theorem perm_cons_eraseIdx {α : Type} {l : List α} {n : Nat} {a : α} (h : l[n]? = some a) :
    (a :: l.eraseIdx n).Perm l := by
  obtain ⟨hn, rfl⟩ := List.getElem?_eq_some_iff.mp h
  exact List.getElem_cons_eraseIdx_perm hn

theorem handedOn_eq (x : Exchange) :
    handedOn x.answer = x.record?.toList.flatMap MountRecord.processes := by
  rcases x with ⟨d, e | _ | ⟨helper, relay⟩⟩
  · rfl
  · rfl
  · simp [handedOn, Exchange.record?, MountRecord.processes]

namespace Hands

theorem processes_mounted (hands : Hands) (x : Exchange) :
    (handedOn x.answer ++ hands.processes).Perm (hands.mounted x).processes := by
  simp only [handedOn_eq, processes, mounted, List.flatMap_append, List.append_assoc]
  exact List.perm_append_comm_assoc _ _ _

theorem processes_remembered (hands : Hands) (n : Nat) :
    hands.processes.Perm (hands.remembered n).processes := by
  unfold remembered
  split
  · exact .refl _
  · rename_i r hr
    refine (List.Perm.flatMap_right _ ?_).append_right _
    calc hands.made ++ hands.tracker.records
      _ |>.Perm (r :: hands.made.eraseIdx n ++ hands.tracker.records) :=
        (perm_cons_eraseIdx hr).symm.append_right _
      _ |>.Perm (hands.made.eraseIdx n ++ r :: hands.tracker.records) := List.perm_middle.symm
      _ |>.Perm (hands.made.eraseIdx n ++ (hands.tracker.records ++ [r])) :=
        (List.perm_append_singleton r _).symm.append_left _

/-- The processes of the tracker, and the others. -/
theorem processes_perm (hands : Hands) :
    hands.processes.Perm (hands.tracker.records.flatMap MountRecord.processes ++
      { hands with tracker := .empty hands.tracker.grace }.processes) := by
  simp only [processes, Tracker.empty, List.flatMap_append, List.append_assoc, List.append_nil]
  exact List.perm_append_comm_assoc _ _ _

theorem processes_cons (hands : Hands) (worker : Worker) :
    (worker.pid :: hands.processes).Perm (hands.started (.ok worker)).processes :=
  List.perm_middle.symm

theorem processes_eraseIdx {hands : Hands} {n : Nat} {worker : Worker}
    (h : hands.commands[n]? = some worker) :
    hands.processes.Perm
      (worker.pid :: { hands with commands := hands.commands.eraseIdx n }.processes) := by
  refine .trans (.append_left _ ?_) List.perm_middle
  exact (perm_cons_eraseIdx h).symm.map Worker.pid

end Hands

namespace Kernel

section Custody

variable {ω : Type} {k : Kernel ω} {H : List Pid → ω → Prop}

/-- The processes in hand may be counted in another order. -/
theorem Custody.perm (h : k.Custody H) {held held' : List Pid} (hperm : held.Perm held') {w : ω}
    (hw : H held w) : H held' w :=
  h.forget hperm.symm.subperm hw

/-- Each deed takes over what it starts and gives up what it has seen end. -/
theorem Custody.keeps_perform (h : k.Custody H) (deed : Deed) :
    Keeps (fun s => H s.1.processes s.2.world) (k.perform deed) := by
  rintro ⟨hands, g⟩ hw
  cases deed with
  | mount c d id =>
    exact h.perm (hands.processes_mounted ⟨d, _⟩) (h.mount hands.processes c d id g.world hw)
  | register n => exact h.perm (hands.processes_remembered n) hw
  | teardown c =>
    exact h.drain (fun held path => (h.quiet held).unmount c path) _ hands.tracker g.world
      (h.perm hands.processes_perm hw)
  | start id args env =>
    have started := h.spawnCommand hands.processes id args env g.world hw
    change H (hands.started (k.spawnAs id (k.commandBody args env) g.world).1).processes
      (k.spawnAs id (k.commandBody args env) g.world).2
    cases answer : (k.spawnAs id (k.commandBody args env) g.world).1 with
    | error e => rwa [answer] at started
    | ok worker =>
      rw [answer] at started
      exact h.perm (hands.processes_cons worker) started
  | follow n looks =>
    simp only [perform]
    split
    · exact hw
    · rename_i worker hworker
      have hperm := hands.processes_eraseIdx hworker
      have followed := h.waitForwarding _ worker looks g (h.perm hperm hw)
      generalize k.waitForwarding worker looks g = after at followed ⊢
      obtain ⟨answer, g'⟩ := after
      cases answer with
      | none => exact h.perm hperm.symm followed
      | some status => exact followed

end Custody

/-- **A process that has been reaped is left alone.** In every run of mounts,
registrations of what was mounted, teardowns, and commands that are started and
waited for, whatever the processes, the clock and the system do: once an answer
about a process has said that it has ended, its number is neither signalled nor
asked after any more, unless a later start of a process has answered the same
number. Of the system it is only assumed that it gives out no number that is
still in use. -/
theorem reaped_left_alone {ω : Type} (k : Kernel ω) (deeds : List Deed) (grace : Duration)
    (signals : SignalTable) (w : ω) (fresh : (k.journalOf deeds grace signals w).FreshNumbers) :
    (k.journalOf deeds grace signals w).ReapedLeftAlone := by
  -- the processes of the hands stay in hand, whatever is still to be done
  have run := Ensures.mapM (I := fun _ (s : Hands × Guarded (Journal × ω)) =>
      Journal.Holds s.1.processes s.2.world)
    (fun deed _ => (Journal.custody_journaled k).keeps_perform deed) deeds
  exact (run (Hands.empty grace, ⟨signals, [], w⟩) (fun _ => Journal.inHand_nil) fresh).law

end Kernel

/-- A mount whose worker cannot be joined to the reader of its output, and then
a command that a signal ends. -/
def Deed.interrupted : List Deed :=
  let id : Identity := ⟨0, 0, none, []⟩
  let d : Directive := ⟨.all, "/m".toList, none, by constructor <;> simp [Bucket.Admissible]⟩
  [.mount .standard d id, .start id [] [], .follow 0 2]

/-- A system in which the probe, the worker and the command get one number. -/
def Dictation.recycling : Dictation where
  starts := [7, 8, 7, 7]
  ends := [.exited 1, .exited 125, .running, .exited 0, .running, .signaled .int false]
  chunks := [Report.encode ⟨.redirect, .eio⟩]
  arrivals := [[], [.int]]
  outcomes := []
  time := 0

theorem Kernel.reaped_left_alone_recycling :
    let j := Dictation.kernel.journalOf Deed.interrupted 0 (.uniform .caught) .recycling
    j.FreshNumbers ∧ j.ReapedLeftAlone := by
  have fresh : (Dictation.kernel.journalOf Deed.interrupted 0 (.uniform .caught)
      .recycling).FreshNumbers := by
    refine Journal.isFresh_iff.mp ?_
    simp only [journalOf, Deed.interrupted, List.mapM_cons, List.mapM_nil, perform, mount,
      startHelper, followWorker, readReport]
    rw [fill_eq_within 2]
    decide +kernel
  exact ⟨fresh, reaped_left_alone _ _ _ _ _ fresh⟩

end BucketMount
