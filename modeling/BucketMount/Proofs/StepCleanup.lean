import BucketMount.Proofs.Dictation
import BucketMount.Proofs.Hooks.Calls
import BucketMount.Proofs.Worker.PrivilegeGate
import BucketMount.Step

/-!
# A step leaves nothing behind

A step catches the termination signals, mounts, runs its command, undoes its
mounts and gives the signals back. `Kernel.StepLog` says what is asked in which
order on the way, for each of the ends that a step can have, and every step that
comes to an end has such a log (`step_cleans_up`).

Whether the command is started is for the system to say at the moment when the
setup is over (`Kernel.StartsCommand`). What became of the mounts has no say.
-/

namespace BucketMount

/-! ## What is asked -/

/-- What is asked while a worker is waited for and signals are passed on to it. -/
def Event.Attends (pid : Pid) : Event → Prop
  | .waited p _ | .signalled p _ => p = pid
  | .arrived _ => True
  | _ => False

def Event.executed? : Event → Option (List Bytes)
  | .executed args => some args
  | _ => none

/-- The commands that workers have asked for. -/
def Journal.executed (j : Journal) : List (List Bytes) := j.filterMap Event.executed?

/-- Every signal is caught, and none is waiting to be taken. -/
def SignalTable.catching : SignalTable := ⟨fun _ => .caught, none⟩

namespace Kernel

variable {ω : Type}

/-- There are a pipe and a process for a worker, and the worker goes on in the
last of the states. -/
def Forks (k : Kernel ω) (worker : Worker) (w forked : ω) : Prop :=
  ∃ opened, k.openPipe w = (.ok worker.status, opened) ∧
    k.fork opened = (.ok worker.pid, forked)

/-- There is a worker, and it becomes the job user. -/
def Launches (k : Kernel ω) (id : Identity) (w : ω) : Prop :=
  ∃ worker forked, k.Forks worker w forked ∧
    (Credentials.dropTo k.idRules id (k.credentials forked)).1 = .ok ()

/-- What is asked to start a command, and whether there is a worker for it. Each
way is told by the answers that are given on it. -/
inductive CommandStart (k : Kernel ω) (id : Identity) (args : List Bytes) (w : ω) :
    Except MountError Worker → Journal → Prop where
  | noPipe {e : Errno} (unopened : (k.openPipe w).1 = .error e) :
      k.CommandStart id args w (.error (.spawn (.pipe e))) []
  | noProcess {pipe : Pipe} {opened : ω} {e : Errno} (opens : k.openPipe w = (.ok pipe, opened))
      (unforked : (k.fork opened).1 = .error e) :
      k.CommandStart id args w (.error (.spawn (.fork e))) []
  /-- The worker cannot become the job user. -/
  | stranded {worker : Worker} {forked : ω} {e : Errno} (forks : k.Forks worker w forked)
      (refused : (Credentials.dropTo k.idRules id (k.credentials forked)).1 = .error e) :
      k.CommandStart id args w (.ok worker) [.forked worker.pid]
  /-- The worker has become the job user and asks for the command, once. -/
  | launched {worker : Worker} {forked : ω} (forks : k.Forks worker w forked)
      (become : (Credentials.dropTo k.idRules id (k.credentials forked)).1 = .ok ()) :
      k.CommandStart id args w (.ok worker) [.forked worker.pid, .executed args]

/-- What is asked for a command, and how it ends. -/
inductive CommandLog (k : Kernel ω) (id : Identity) (args : List Bytes) (looks : Nat) (w : ω) :
    CommandEnd → Journal → Prop where
  | unstarted {e : MountError} {start : Journal}
      (unstarted : k.CommandStart id args w (.error e) start) :
      k.CommandLog id args looks w (.failed e) start
  /-- Its worker is waited for, which decides how it ends. -/
  | followed {worker : Worker} {left : ω} {start later : Journal}
      (started : k.CommandStart id args w (.ok worker) start)
      (left_eq : k.spawnAs id (k.commandBody args (k.environment w).entries) w = (.ok worker, left))
      (attends : ∀ x ∈ later, x.Attends worker.pid) :
      k.CommandLog id args looks w (k.followCommand worker looks ⟨.catching, left⟩).1
        (start ++ later)

/-- The command has been seen to, unless a signal had arrived before: then the
last one stands for its end. -/
def CommandOrSignal (k : Kernel ω) (id : Identity) (args : List Bytes) (looks : Nat) (w : ω)
    (arrived : List TerminationSignal) (how : CommandEnd) (command : Journal) : Prop :=
  arrived = [] ∧ k.CommandLog id args looks w how command ∨
    ∃ s, arrived.getLast? = some s ∧ how = .code (signalCode s.toSignal) ∧ command = []

/-- What a step goes through before its command, from a tracker. The states are
those after each part. -/
structure Prelude (k : Kernel ω) (b : Backend ω) (id : Identity) (stored : Option Text)
    (t : Tracker) (w : ω) where
  /-- The signals that have arrived before they are caught. -/
  before : List TerminationSignal
  /-- The signals that have arrived by the end of the setup. -/
  during : List TerminationSignal
  report : SetupReport
  tracker : Tracker
  (caught mounted reached : ω)
  caught_eq : k.arrived w = (before, caught)
  mounted_eq : Hooks.stepSetup b id (.ok stored) t caught =
    ((.ok report, tracker), mounted)
  reached_eq : k.arrived (k.announce b.name report mounted).2 = (during, reached)

/-- What is asked by a step with this text, and how the step ends. -/
inductive StepLog (k : Kernel ω) (b : Backend ω) (id : Identity) (grace : Duration)
    (args : List Bytes) (looks : Nat) (w : ω) :
    Except MountError (Option Text) → StepEnd → Journal → Prop where
  /-- There was no text to be had. -/
  | noMounts {e : MountError} {before after : List TerminationSignal} :
      k.StepLog b id grace args looks w (.error e) (.noMounts e) [.arrived before, .arrived after]
  /-- All of the text was asked for, then the command was seen to unless a
  signal had arrived meanwhile, and then the mounts were undone. -/
  | ended {stored : Option Text} {how : CommandEnd} {xs : List Exchange}
      {after : List TerminationSignal} {command undo : Journal}
      (prelude : k.Prelude b id stored (.empty grace) w)
      (asked : xs.map Exchange.directive = Hooks.mountable (MountList.tokens (stored.getD [])))
      (ran : k.CommandOrSignal id args looks prelude.reached prelude.during how command)
      (undone : undo.detachedPaths = (freshPaths xs).reverse) (undoes : ∀ x ∈ undo, x.Undoes) :
      k.StepLog b id grace args looks w (.ok stored) (.command how)
        (.arrived prelude.before :: (xs.map .asked ++ .arrived prelude.during ::
          (command ++ (undo ++ [.arrived after]))))

/-- Nothing keeps the command from being started: there is a text, no signal has
arrived when the setup is over, and then there is a worker for the command that
becomes the job user. -/
inductive StartsCommand (k : Kernel ω) (b : Backend ω) (id : Identity) (grace : Duration) (w : ω) :
    Except MountError (Option Text) → Prop where
  | intro {stored : Option Text} (prelude : k.Prelude b id stored (.empty grace) w)
      (unsignalled : prelude.during = []) (launches : k.Launches id prelude.reached) :
      k.StartsCommand b id grace w (.ok stored)

end Kernel

/-! ## Which commands are asked for -/

namespace Journal

theorem executed_append (j j' : Journal) :
    Journal.executed (j ++ j') = j.executed ++ j'.executed :=
  List.filterMap_append

theorem executed_eq_nil {j : Journal} (h : ∀ x ∈ j, x.executed? = none) : j.executed = [] :=
  List.filterMap_eq_nil_iff.mpr h

theorem executed_of_attends {pid : Pid} {j : Journal} (h : ∀ x ∈ j, x.Attends pid) :
    j.executed = [] := by
  apply executed_eq_nil
  intro x hx
  have hattends := h x hx
  cases x with
  | executed args => cases hattends
  | _ => rfl

theorem executed_of_undoes {j : Journal} (h : ∀ x ∈ j, x.Undoes) : j.executed = [] := by
  apply executed_eq_nil
  intro x hx
  have hundoes := h x hx
  cases x with
  | executed args => cases hundoes
  | _ => rfl

theorem executed_asked (xs : List Exchange) : Journal.executed (xs.map .asked) = [] := by
  apply executed_eq_nil
  intro x hx
  obtain ⟨exchange, -, rfl⟩ := List.mem_map.mp hx
  rfl

end Journal

namespace Kernel

variable {ω : Type} {k : Kernel ω} {b : Backend ω} {id : Identity} {args : List Bytes} {looks : Nat}
variable {w w' : ω} {grace : Duration}

/-- The system has one answer to each question, so there is one state to go on in. -/
theorem Forks.unique {worker worker' : Worker} {forked forked' : ω} (h : k.Forks worker w forked)
    (h' : k.Forks worker' w forked') : forked = forked' := by
  obtain ⟨opened, hopen, hfork⟩ := h
  obtain ⟨opened', hopen', hfork'⟩ := h'
  obtain ⟨-, rfl⟩ := Prod.mk.inj (hopen.symm.trans hopen')
  exact congrArg Prod.snd (hfork.symm.trans hfork')

/-- The command is asked for exactly if there is a worker that becomes the job user. -/
theorem CommandStart.executed_eq {answer : Except MountError Worker} {start : Journal}
    (h : k.CommandStart id args w answer start) :
    (k.Launches id w → start.executed = [args]) ∧ (¬k.Launches id w → start.executed = []) := by
  cases h with
  | noPipe unopened =>
    refine ⟨?_, fun _ => rfl⟩
    rintro ⟨worker, forked, ⟨opened, hopen, -⟩, -⟩
    rw [hopen] at unopened
    cases unopened
  | noProcess opens unforked =>
    refine ⟨?_, fun _ => rfl⟩
    rintro ⟨worker, forked, ⟨opened, hopen, hfork⟩, -⟩
    cases opens.symm.trans hopen
    rw [hfork] at unforked
    cases unforked
  | stranded forks refused =>
    refine ⟨?_, fun _ => rfl⟩
    rintro ⟨worker, forked, forks', become⟩
    rw [forks.unique forks'] at refused
    cases refused.symm.trans become
  | launched forks become =>
    exact ⟨fun _ => rfl, fun hnot => absurd ⟨_, _, forks, become⟩ hnot⟩

theorem CommandLog.executed_eq {how : CommandEnd} {command : Journal}
    (h : k.CommandLog id args looks w how command) :
    (k.Launches id w → command.executed = [args]) ∧
      (¬k.Launches id w → command.executed = []) := by
  cases h with
  | unstarted unstarted => exact unstarted.executed_eq
  | followed started left_eq attends =>
    rw [Journal.executed_append, Journal.executed_of_attends attends, List.append_nil]
    exact started.executed_eq

/-- There is one way to the command. -/
theorem Prelude.unique {stored : Option Text} {t : Tracker} (p q : k.Prelude b id stored t w) :
    p.during = q.during ∧ p.reached = q.reached := by
  have hcaught : p.caught = q.caught := congrArg Prod.snd (p.caught_eq.symm.trans q.caught_eq)
  have hmounted := p.mounted_eq
  rw [hcaught, q.mounted_eq] at hmounted
  obtain ⟨hanswer, hworld⟩ := Prod.mk.inj hmounted
  obtain ⟨hreport, -⟩ := Prod.mk.inj hanswer
  have hreached := p.reached_eq
  rw [← Except.ok.inj hreport, ← hworld, q.reached_eq] at hreached
  obtain ⟨hduring, hreached⟩ := Prod.mk.inj hreached
  exact ⟨hduring.symm, hreached.symm⟩

/-- The command is asked for once if nothing keeps it from being started, and not
at all otherwise. -/
theorem StepLog.executed_eq {stored : Except MountError (Option Text)} {how : StepEnd}
    {events : Journal} (h : k.StepLog b id grace args looks w stored how events) :
    (k.StartsCommand b id grace w stored → events.executed = [args]) ∧
      (¬k.StartsCommand b id grace w stored → events.executed = []) := by
  cases h with
  | noMounts =>
    refine ⟨fun hstarts => ?_, fun _ => rfl⟩
    cases hstarts
  | @ended stored how xs after command undo prelude asked ran undone undoes =>
    have hevents : Journal.executed (.arrived prelude.before :: (xs.map .asked ++
        .arrived prelude.during :: (command ++ (undo ++ [.arrived after])))) =
          command.executed := by
      change Journal.executed (xs.map .asked ++ ([.arrived prelude.during] ++
        (command ++ (undo ++ [.arrived after])))) = _
      simp only [Journal.executed_append, Journal.executed_asked,
        Journal.executed_of_undoes undoes, List.nil_append]
      exact List.append_nil _
    rw [hevents]
    constructor
    · intro hstarts
      cases hstarts with
      | intro prelude' unsignalled launches =>
        obtain ⟨hduring, hreached⟩ := prelude.unique prelude'
        rw [← hreached] at launches
        rcases ran with ⟨-, hlog⟩ | ⟨signal, hsignal, -, -⟩
        · exact hlog.executed_eq.1 launches
        · rw [hduring, unsignalled] at hsignal
          cases hsignal
    · intro hnot
      rcases ran with ⟨hduring, hlog⟩ | ⟨signal, -, -, rfl⟩
      · exact hlog.executed_eq.2 fun launches => hnot (.intro prelude hduring launches)
      · rfl

end Kernel

namespace Kernel

variable {ω : Type} (k : Kernel ω)

/-! ## The command -/

theorem logs_waitForwarding (worker : Worker) (looks : Nat) :
    Logs (fun g : Guarded (Journal × ω) => g.world.1) (k.journaled.waitForwarding worker looks)
      fun _ events => ∀ x ∈ events, x.Attends worker.pid := by
  refine .of_grows fun j => ?_
  let P (s : Journal × ω) : Prop := j.Grows (Event.Attends worker.pid) s.1
  have arrived : Keeps P k.journaled.arrived := fun s hs => hs.snoc trivial
  have kill (signal : Option Signal) : Keeps P (k.journaled.kill worker.pid signal) :=
    fun s hs => hs.snoc (e := .signalled worker.pid signal) rfl
  have poll : Ensures P (k.journaled.poll worker.pid) fun answer =>
      if leavesOpen answer then P else P := by
    intro s hs
    have := hs.snoc (e := .waited worker.pid (k.poll worker.pid s.2).1) rfl
    split <;> exact this
  refine .imp (fun _ hg => hg)
    (ensures_waitForwarding (fun _ _ hs => hs) arrived kill poll looks) fun answer g hg => ?_
  split at hg <;> exact hg

theorem logs_followCommand (worker : Worker) (looks : Nat) :
    Logs (fun g : Guarded (Journal × ω) => g.world.1) (k.journaled.followCommand worker looks)
      fun _ events => ∀ x ∈ events, x.Attends worker.pid := by
  have read : Logs Prod.fst (k.journaled.readReport worker) fun _ events => events = [] :=
    .of_keeps fun j => (k.quiet_journaled (· = j)).readReport worker
  refine .bind read.guarded fun report before hbefore => ?_
  subst hbefore
  cases report with
  | error e => exact .pure (by simp)
  | ok report =>
    refine .bind (logs_waitForwarding k worker looks) fun answer events hevents => ?_
    have all : ∀ x ∈ [] ++ (events ++ []), x.Attends worker.pid := by simpa using hevents
    rcases answer with _ | e | status <;> rcases report with _ | r <;> exact .pure all

theorem logs_commandBody (args env : List Bytes) (caller : Credentials) (status : Pipe) :
    Logs Prod.fst (k.journaled.commandBody args env caller status) fun _ events =>
      events = [.executed args] := by
  have report (r : Report) :
      Logs Prod.fst (k.journaled.report status r) fun _ events => events = [] :=
    .of_keeps fun j => (k.quiet_journaled (· = j)).report status r
  have exec : Logs Prod.fst (k.journaled.exec caller args env) fun _ events =>
      events = [.executed args] := logs_noting _ _
  refine .bind exec fun answer before hbefore => ?_
  subst hbefore
  cases answer with
  | none => exact .pure rfl
  | some e =>
    refine .bind (report ⟨.exec, e⟩) fun _ events hevents => .pure ?_
    rw [hevents]
    rfl

section Start

variable {id : Identity} {pipe : Pipe} {e : Errno} {w w₁ w₂ : ω}

theorem spawnAs_of_unopened (unopened : k.openPipe w = (.error e, w₁))
    (body : Credentials → Pipe → StateM ω Ending) :
    k.spawnAs id body w = (.error (.spawn (.pipe e)), w₁) := by
  rw [spawnAs, bind_of_eq unopened]
  rfl

theorem spawnAs_of_unforked (opened : k.openPipe w = (.ok pipe, w₁))
    (unforked : k.fork w₁ = (.error e, w₂)) (body : Credentials → Pipe → StateM ω Ending) :
    k.spawnAs id body w = (.error (.spawn (.fork e)), w₂) := by
  rw [spawnAs, bind_of_eq opened]
  dsimp only
  rw [bind_of_eq unforked]
  rfl

end Start

/-- However far a worker for a command gets, the answers on its way say so. -/
theorem log_spawnCommand (id : Identity) (args env : List Bytes) (s : Journal × ω) :
    ∃ start, (k.journaled.spawnAs id (k.journaled.commandBody args env) s).2.1 = s.1 ++ start ∧
      k.journaled.CommandStart id args s
        (k.journaled.spawnAs id (k.journaled.commandBody args env) s).1 start := by
  have left (pid : Pid) (ending : Ending) (s : Journal × ω) :
      (k.journaled.leave pid ending s).2.1 = s.1 :=
    keeps_beside (P := (· = s.1)) (k.leave pid ending) s rfl
  have opens : (k.journaled.openPipe s).2.1 = s.1 := keeps_beside (P := (· = s.1)) k.openPipe s rfl
  rcases hopen : k.journaled.openPipe s with ⟨e | pipe, s₁⟩
  · rw [hopen] at opens
    rw [k.journaled.spawnAs_of_unopened hopen]
    exact ⟨[], opens.trans (List.append_nil _).symm, .noPipe (congrArg Prod.fst hopen)⟩
  rw [hopen] at opens
  obtain ⟨_, forks, rfl⟩ := logs_noting Event.ofStart k.fork s₁
  change (k.journaled.fork s₁).2.1 = s₁.1 ++ Event.ofStart (k.journaled.fork s₁).1 at forks
  rcases hfork : k.journaled.fork s₁ with ⟨e | pid, s₂⟩
  · rw [hfork, opens] at forks
    rw [k.journaled.spawnAs_of_unforked hopen hfork]
    exact ⟨[], forks, .noProcess hopen (congrArg Prod.fst hfork)⟩
  rw [hfork, opens] at forks
  have hforks : k.journaled.Forks ⟨pid, pipe⟩ s s₂ := ⟨s₁, hopen, hfork⟩
  rcases hdrop : Credentials.dropTo k.journaled.idRules id (k.journaled.credentials s₂) with
    ⟨e | _, caller⟩
  · have refused := congrArg Prod.fst hdrop
    rw [k.journaled.spawnAs_of_refused hopen hfork refused]
    refine ⟨[.forked pid], ?_, .stranded hforks refused⟩
    have reports : (k.journaled.report pipe ⟨.privilegeDrop, e⟩ s₂).2.1 = s₂.1 :=
      (k.quiet_journaled (· = s₂.1)).report pipe _ s₂ rfl
    exact (left _ _ _).trans (reports.trans forks)
  · rw [k.journaled.spawnAs_of_admitted hopen hfork hdrop]
    refine ⟨[.forked pid, .executed args], ?_, .launched hforks (congrArg Prod.fst hdrop)⟩
    obtain ⟨_, asks, rfl⟩ := k.logs_commandBody args env caller pipe s₂
    refine (left _ _ _).trans (asks.trans ?_)
    rw [forks]
    exact List.append_assoc _ _ _

/-- A command is started, and then its worker is followed if there is one. -/
theorem log_runAs (id : Identity) (args : List Bytes) (looks : Nat) (s : Journal × ω) :
    ∃ command, (k.journaled.runAs id args looks ⟨.catching, s⟩).2.world.1 = s.1 ++ command ∧
      k.journaled.CommandLog id args looks s
        (k.journaled.runAs id args looks ⟨.catching, s⟩).1 command := by
  let env := (k.journaled.environment s).entries
  obtain ⟨start, hstart, hlog⟩ := k.log_spawnCommand id args env s
  rcases hspawn : k.journaled.spawnAs id (k.journaled.commandBody args env) s with ⟨answer, left⟩
  rw [hspawn] at hstart hlog
  have spawned : guarded (k.journaled.spawnAs id (k.journaled.commandBody args env))
      ⟨.catching, s⟩ = (answer, ⟨.catching, left⟩) := by
    rw [guarded, hspawn]
  rw [runAs, bind_get, bind_of_eq spawned]
  cases answer with
  | error e => exact ⟨start, hstart, .unstarted hlog⟩
  | ok worker =>
    obtain ⟨later, hlater, attends⟩ := k.logs_followCommand worker looks ⟨.catching, left⟩
    refine ⟨start ++ later, ?_, .followed hlog hspawn attends⟩
    rw [← List.append_assoc, ← hstart]
    exact hlater

end Kernel

/-! ## Signals -/

namespace SignalTable

theorem dispositions_raiseAll (t : SignalTable) (signals : List TerminationSignal) :
    (t.raiseAll signals).dispositions = t.dispositions := by
  induction signals generalizing t with
  | nil => rfl
  | cons s signals ih =>
    change ((t.raise s).raiseAll signals).dispositions = _
    rw [ih, raise]
    split <;> rfl

theorem raiseAll_caught (signals : List TerminationSignal) (pending : Option TerminationSignal) :
    raiseAll ⟨fun _ => .caught, pending⟩ signals =
      ⟨fun _ => .caught, signals.getLast?.or pending⟩ := by
  induction signals generalizing pending with
  | nil => rfl
  | cons s signals ih =>
    change raiseAll ⟨fun _ => .caught, some s⟩ signals = _
    rw [ih, List.getLast?_cons]
    cases signals.getLast? <;> rfl

end SignalTable

namespace Kernel

variable {ω : Type} (k : Kernel ω)

variable {g g' : Guarded ω} {id : Identity} {args : List Bytes} {looks : Nat}

theorem catchSignals_eq (g : Guarded ω) :
    k.catchSignals g =
      ((⟨g.signals.dispositions⟩ : SignalHandler), ⟨.catching, (k.arrived g.world).2⟩) := by
  change (SignalHandler.mk (g.signals.raiseAll _).dispositions, _) = _
  rw [SignalTable.dispositions_raiseAll]
  rfl

theorem takeSignal_catching (w : ω) :
    k.takeSignal ⟨.catching, w⟩ =
      ((k.arrived w).1.getLast?, ⟨.catching, (k.arrived w).2⟩) := by
  change ((SignalTable.catching.raiseAll (k.arrived w).1).pending, _) = _
  rw [SignalTable.catching, SignalTable.raiseAll_caught, Option.or_none]

/-- A signal that has arrived takes the place of the command. -/
theorem runUnlessSignalled_catching (w : ω) :
    k.runUnlessSignalled id args looks ⟨.catching, w⟩ =
      match (k.arrived w).1.getLast? with
      | some s => (.code (signalCode s.toSignal), ⟨.catching, (k.arrived w).2⟩)
      | none => k.runAs id args looks ⟨.catching, (k.arrived w).2⟩ := by
  unfold runUnlessSignalled
  simp only [bind, StateT.bind]
  rw [takeSignal_catching]
  cases (k.arrived w).1.getLast? <;> rfl

section Outline

variable {handler : SignalHandler} {signals : SignalTable} {w₀ : ω}

theorem step_error {b : Backend ω} {e : MountError} {t : Tracker} {g₀ : Guarded ω}
    (caught : k.catchSignals g = (handler, g₀)) :
    k.step b id (.error e) t args looks g =
      ((.noMounts e, t), (k.releaseSignals handler g₀).2) := by
  unfold step
  simp only [bind, StateT.bind, guarded]
  rw [caught]
  rfl

/-- What a step does after its setup. -/
theorem step_ok {b : Backend ω} {stored : Except MountError (Option Text)} {t t' : Tracker}
    {report : SetupReport} {w : ω} {how : CommandEnd}
    (caught : k.catchSignals g = (handler, ⟨signals, w₀⟩))
    (setup : Hooks.stepSetup b id stored t w₀ = ((.ok report, t'), w))
    (run : k.runUnlessSignalled id args looks ⟨signals, (k.announce b.name report w).2⟩ =
      (how, g')) :
    k.step b id stored t args looks g =
      if how = .unfinished then ((.command .unfinished, t'), g')
      else
        let torn := Hooks.stepTeardown b k.toProcesses t' g'.world
        ((.command how, torn.1.2), (k.releaseSignals handler ⟨g'.signals, torn.2⟩).2) := by
  unfold step
  simp only [bind, StateT.bind, guarded]
  rw [caught]
  dsimp only
  rw [setup]
  simp only [StateT.bind, guarded, bind]
  generalize k.announce b.name report w = announced at run ⊢
  obtain ⟨_, w'⟩ := announced
  dsimp only at run ⊢
  rw [run]
  cases how <;> rfl

end Outline

theorem journal_of_arrived {s s' : Journal × ω} {signals : List TerminationSignal}
    (arrives : k.journaled.arrived s = (signals, s')) : s'.1 = s.1 ++ [.arrived signals] := by
  cases arrives
  rfl

theorem logs_announce (name : Text) (report : SetupReport) :
    Logs Prod.fst (k.journaled.announce name report) fun _ events => events = [] := by
  refine .of_keeps fun j => ?_
  have print := (k.quiet_journaled (· = j)).printError
  refine .bind (.forM (fun failure => print _) _) fun _ => ?_
  split
  · exact print _
  · exact .pure fun _ hs => hs

/-- The command is run and has its say, unless a signal takes its place. -/
theorem log_runUnlessSignalled {R : CommandEnd → Journal → Prop} {s reached : Journal × ω}
    {during : List TerminationSignal} (arrives : k.journaled.arrived s = (during, reached))
    (ran : let after := k.journaled.runAs id args looks ⟨.catching, reached⟩
      ∃ command, after.2.world.1 = reached.1 ++ command ∧ R after.1 command) :
    let after := k.journaled.runUnlessSignalled id args looks ⟨.catching, s⟩
    ∃ command, after.2.world.1 = s.1 ++ .arrived during :: command ∧
      (during = [] ∧ R after.1 command ∨
        ∃ signal, during.getLast? = some signal ∧
          after.1 = .code (signalCode signal.toSignal) ∧ command = []) := by
  have hreached := k.journal_of_arrived arrives
  dsimp only
  rw [runUnlessSignalled_catching, arrives]
  dsimp only
  cases hlast : during.getLast? with
  | some signal => exact ⟨[], hreached, Or.inr ⟨signal, rfl, rfl, rfl⟩⟩
  | none =>
    obtain ⟨command, hcommand, hr⟩ := ran
    refine ⟨command, ?_, Or.inl ⟨List.getLast?_eq_none_iff.mp hlast, hr⟩⟩
    rw [hcommand, hreached, List.append_assoc]
    rfl

/-- The mounts of a tracker are undone, and then the signals are given back. -/
theorem log_end (b : Backend ω) (t : Tracker) (handler : SignalHandler)
    (g : Guarded (Journal × ω)) :
    let torn := Hooks.stepTeardown b.journaled k.journaled.toProcesses t g.world
    let after := (k.journaled.releaseSignals handler ⟨g.signals, torn.2⟩).2
    torn.1.2 = .empty t.grace ∧ after.signals.dispositions = handler.previous ∧
      ∃ (undo : Journal) (signals : List TerminationSignal),
        after.world.1 = g.world.1 ++ (undo ++ [.arrived signals]) ∧
        undo.detachedPaths = (t.records.map MountRecord.path).reverse ∧ ∀ x ∈ undo, x.Undoes := by
  intro torn after
  obtain ⟨undo, hundo, hempty, hundone, hundoes⟩ :=
    Hooks.logs_stepTeardown b k.toProcesses t g.world
  have htorn : torn.2.1 = g.world.1 ++ undo := hundo
  refine ⟨hempty, rfl, undo, (k.journaled.arrived torn.2).1, ?_, hundone, hundoes⟩
  change torn.2.1 ++ [.arrived (k.journaled.arrived torn.2).1] = _
  rw [htorn, List.append_assoc]

/-- A step with a text that comes to an end has gone all the way, whatever came
of the mounts and of the command. -/
theorem step_returned {b : Backend ω} {stored : Option Text} {t : Tracker}
    {g : Guarded (Journal × ω)}
    (returned : (k.journaled.step b.journaled id (.ok stored) t args looks g).1.1 ≠
      .command .unfinished) :
    ∃ (prelude : k.journaled.Prelude b.journaled id stored t g.world) (xs : List Exchange)
      (how : CommandEnd) (g' : Guarded (Journal × ω)),
      let announced := (k.journaled.announce b.journaled.name prelude.report prelude.mounted).2
      announced.1 = g.world.1 ++ .arrived prelude.before :: xs.map .asked ∧
      xs.map Exchange.directive = Hooks.mountable (MountList.tokens (stored.getD [])) ∧
      k.journaled.runUnlessSignalled id args looks ⟨.catching, announced⟩ = (how, g') ∧
      let after := k.journaled.step b.journaled id (.ok stored) t args looks g
      after.1 = (.command how, .empty t.grace) ∧
        after.2.signals.dispositions = g.signals.dispositions ∧
        ∃ (undo : Journal) (signals : List TerminationSignal),
          after.2.world.1 = g'.world.1 ++ (undo ++ [.arrived signals]) ∧
          undo.detachedPaths =
            (t.records.map MountRecord.path ++ freshPaths xs).reverse ∧
          ∀ x ∈ undo, x.Undoes := by
  rcases harrive : k.journaled.arrived g.world with ⟨before, caught⟩
  have hbefore := k.journal_of_arrived harrive
  have hcatch := k.journaled.catchSignals_eq g
  rw [harrive] at hcatch
  obtain ⟨_, hasked, report, xs, hanswer, hdirectives, rfl⟩ :=
    Hooks.logs_stepSetup b id stored t caught
  rcases hsetup : Hooks.stepSetup b.journaled id (.ok stored) t caught with ⟨answer, mounted⟩
  rw [hsetup] at hasked hanswer
  dsimp only at hasked hanswer
  subst hanswer
  obtain ⟨_, hannounced, rfl⟩ := logs_announce k b.journaled.name report mounted
  rcases hreach : k.journaled.arrived
    (k.journaled.announce b.journaled.name report mounted).2 with ⟨during, reached⟩
  rcases hrun : k.journaled.runUnlessSignalled id args looks
    ⟨.catching, (k.journaled.announce b.journaled.name report mounted).2⟩ with ⟨how, g'⟩
  rw [k.journaled.step_ok hcatch hsetup hrun] at returned ⊢
  by_cases hhow : how = .unfinished
  · rw [if_pos hhow] at returned
    exact absurd rfl returned
  rw [if_neg hhow]
  obtain ⟨hempty, hdispositions, undo, signals, hundo, hundone, hundoes⟩ :=
    k.log_end b { t with records := t.records ++ xs.filterMap Exchange.record? }
      ⟨g.signals.dispositions⟩ g'
  refine ⟨⟨before, during, report, _, caught, mounted, reached, harrive, hsetup, hreach⟩, xs,
    how, g', ?_, hdirectives, hrun, Prod.ext rfl hempty, hdispositions, undo, signals, hundo, ?_,
    hundoes⟩
  · rw [hannounced, hasked, hbefore]
    simp only [List.append_assoc, List.cons_append, List.nil_append, List.append_nil]
  · rw [hundone, List.map_append]
    rfl

/-- **A step cleans up.** Whatever is stored, however the back end answers,
whatever the processes and the pipes do and whenever signals arrive: when a
step with an empty tracker comes to an end, whether with a code or an error,
the tracker is empty again and the signals are arranged as before. All that the
text asks for has been asked for before the command is started, and then each
mount that was made has been detached once, the last one first.

The command is started once if nothing keeps it from being started, and not at
all otherwise. A mount that has failed does not keep it from being started; a
signal that has arrived during the setup does. -/
theorem step_cleans_up {ω : Type} (k : Kernel ω) (b : Backend ω) (id : Identity)
    (stored : Except MountError (Option Text)) (grace : Duration) (args : List Bytes) (looks : Nat)
    (g : Guarded (Journal × ω))
    (returned : (k.journaled.step b.journaled id stored (.empty grace) args looks g).1.1 ≠
      .command .unfinished) :
    let after := k.journaled.step b.journaled id stored (.empty grace) args looks g
    after.1.2 = .empty grace ∧ after.2.signals.dispositions = g.signals.dispositions ∧
    ∃ events, after.2.world.1 = g.world.1 ++ events ∧
      k.journaled.StepLog b.journaled id grace args looks g.world stored after.1.1 events ∧
      (k.journaled.StartsCommand b.journaled id grace g.world stored → events.executed = [args]) ∧
      (¬k.journaled.StartsCommand b.journaled id grace g.world stored → events.executed = []) := by
  intro after
  suffices h : after.1.2 = .empty grace ∧
      after.2.signals.dispositions = g.signals.dispositions ∧
      ∃ events, after.2.world.1 = g.world.1 ++ events ∧
        k.journaled.StepLog b.journaled id grace args looks g.world stored after.1.1 events by
    obtain ⟨hempty, hdispositions, events, hevents, hlog⟩ := h
    exact ⟨hempty, hdispositions, events, hevents, hlog, hlog.executed_eq⟩
  cases stored with
  | error e =>
    have hcatch := k.journaled.catchSignals_eq g
    dsimp only [after]
    rw [k.journaled.step_error hcatch]
    exact ⟨rfl, rfl, [.arrived _, .arrived _], List.append_assoc _ _ _, .noMounts⟩
  | ok stored =>
    obtain ⟨prelude, xs, how, g', hannounced, hdirectives, hrun, hend, hdispositions, undo, signals,
      hundo, hundone, hundoes⟩ := k.step_returned returned
    obtain ⟨command, hcommand, hran⟩ := k.log_runUnlessSignalled prelude.reached_eq
      (k.log_runAs id args looks prelude.reached)
    rw [hrun] at hcommand hran
    dsimp only at hcommand hran
    have hhow : after.1.1 = .command how := congrArg Prod.fst hend
    -- the tracker was empty, so it has the records of this setup and no others
    refine ⟨congrArg Prod.snd hend, hdispositions, .arrived prelude.before :: (xs.map .asked ++
      .arrived prelude.during :: (command ++ (undo ++ [.arrived signals]))), ?_, ?_⟩
    · dsimp only [after]
      rw [hundo, hcommand, hannounced]
      simp only [List.append_assoc, List.cons_append]
    · rw [hhow]
      exact .ended prelude hdirectives hran hundone hundoes

end Kernel

namespace Dictation

/-- Of three mounts the second one fails, and the command is ended by a signal. -/
def hangup : Dictation where
  starts := [9]
  ends := [.running, .signaled .hup false, .exited 0, .exited 0]
  chunks := []
  arrivals := [[], [], [], [.int, .hup]]
  outcomes := [.ok (.mounted 7 none), .error (.timeout "/b".toList 500), .ok (.mounted 8 none)]
  time := 0

/-- The way to the command, with the failure on it and nothing in the way of the command. -/
theorem exists_prelude_hangup :
    ∃ prelude : kernel.journaled.Prelude backend.journaled ⟨0, 0, none, []⟩
      (some "/a;/b;/c".toList) (.empty 0) ([], hangup),
      prelude.report.failed = [("/b".toList, .timeout "/b".toList 500)] ∧
      prelude.during = [] ∧ kernel.journaled.Launches ⟨0, 0, none, []⟩ prelude.reached := by
  rcases hsetup : Hooks.stepSetup backend.journaled ⟨0, 0, none, []⟩
    (.ok (some "/a;/b;/c".toList)) (.empty 0) (kernel.journaled.arrived ([], hangup)).2 with
    ⟨⟨answer, tracker⟩, mounted⟩
  have hanswer : answer = .ok ⟨["/a".toList, "/c".toList], [],
      [("/b".toList, .timeout "/b".toList 500)]⟩ :=
    (congrArg (·.1.1) hsetup).symm.trans (by decide +kernel)
  have hmounted : mounted = _ := (congrArg Prod.snd hsetup).symm
  subst hanswer
  refine ⟨⟨[], [], _, tracker, _, mounted, _, rfl, hsetup, Prod.ext ?_ rfl⟩, rfl, rfl,
    ⟨9, 0⟩, _, ⟨_, rfl, Prod.ext ?_ rfl⟩, ?_⟩
  all_goals
    rw [hmounted]
    decide +kernel

theorem step_hangup :
    (kernel.journaled.step backend.journaled ⟨0, 0, none, []⟩ (.ok (some "/a;/b;/c".toList))
      (.empty 0) [Text.toUtf8 "sleep".toList] 2 ⟨.uniform .ignored, [], hangup⟩).1.1 =
        .command (.code 129) := by
  simp only [Kernel.step, Kernel.runUnlessSignalled, Kernel.runAs, Kernel.followCommand,
    Kernel.readReport]
  rw [Kernel.fill_eq_within 1]
  decide +kernel

end Dictation

theorem Kernel.step_cleans_up_hangup :
    let k := Dictation.kernel.journaled
    let b := Dictation.backend.journaled
    let id : Identity := ⟨0, 0, none, []⟩
    let text : Text := "/a;/b;/c".toList
    let args : List Bytes := [Text.toUtf8 "sleep".toList]
    let g : Guarded (Journal × Dictation) := ⟨.uniform .ignored, [], .hangup⟩
    let after := k.step b id (.ok (some text)) (.empty 0) args 2 g
    after.1.1 = .command (.code 129) ∧ after.1.2 = .empty 0 ∧
      after.2.signals.dispositions = g.signals.dispositions ∧
      (∃ prelude : k.Prelude b id (some text) (.empty 0) g.world,
        prelude.report.failed.length = 1 ∧ prelude.during = [] ∧ k.Launches id prelude.reached) ∧
      ∃ events, after.2.world.1 = g.world.1 ++ events ∧
        k.StepLog b id 0 args 2 g.world (.ok (some text)) after.1.1 events ∧
        events.executed = [args] := by
  obtain ⟨prelude, hfailed, unsignalled, launches⟩ := Dictation.exists_prelude_hangup
  have hend := Dictation.step_hangup
  have returned : StepEnd.command (.code 129) ≠ .command .unfinished := nofun
  rw [← hend] at returned
  obtain ⟨hempty, hdispositions, events, hevents, hlog, hstarted, -⟩ :=
    step_cleans_up _ _ _ _ _ _ _ _ returned
  exact ⟨hend, hempty, hdispositions,
    ⟨prelude, by rw [hfailed, List.length_singleton], unsignalled, launches⟩,
    events, hevents, hlog, hstarted (.intro prelude unsignalled launches)⟩

end BucketMount
