import BucketMount.Proofs.StepCleanup

/-!
# What decides the code of a step

A signal that has arrived by the end of the setup decides the code of a step
and keeps the command from being started. A signal that arrives later is passed
on and has no further say: the code stands for the end that the system told of
the command's worker last (`step_code`), so a command that does not die of the
signal ends the step with a code of its own.
-/

namespace BucketMount

/-- The last thing that was asked is how a process has ended, with this answer. -/
def Journal.TellsEnd (j : Journal) (pid : Pid) (status : WaitStatus) : Prop :=
  status.hasEnded ∧ j.getLast? = some (.waited pid (.ok status))

theorem Journal.TellsEnd.append_left {j : Journal} {pid : Pid} {status : WaitStatus}
    (h : j.TellsEnd pid status) (before : Journal) :
    Journal.TellsEnd (before ++ j) pid status :=
  ⟨h.1, by rw [List.getLast?_append, h.2, Option.some_or]⟩

/-- What a code stands for, given the signals that arrived during the setup and
what was asked for the command. -/
def CodeStandsFor (n : Nat) (during : List TerminationSignal) (command : Journal) : Prop :=
  (∃ s, during.getLast? = some s ∧ n = signalCode s.toSignal ∧ command = []) ∨
    during = [] ∧ ∃ pid status, command.TellsEnd pid status ∧ n = exitCode status

namespace Kernel

variable {ω : Type} (k : Kernel ω)

theorem logs_tryWait (worker : Worker) :
    Logs Prod.fst (k.journaled.tryWait worker) fun answer events =>
      ∀ status, answer = .ok (some status) → events = [.waited worker.pid (.ok status)] := by
  have poll : Logs Prod.fst (k.journaled.poll worker.pid) fun answer events =>
      events = [.waited worker.pid answer] := logs_noting _ _
  refine .bind poll fun answer events hevents => ?_
  subst hevents
  split
  · exact .pure (by simp)
  · refine .pure fun status h => ?_
    cases h
    rfl
  · exact .pure (by simp)
  · exact .pure (by simp)

theorem logs_takeSignal :
    Logs (fun g : Guarded (Journal × ω) => g.world.1) k.journaled.takeSignal fun _ _ => True :=
  fun _ => ⟨_, rfl, trivial⟩

/-- Whatever signals are passed on to a worker, the answer is the end that was
told of it last. -/
theorem tellsEnd_waitForwarding (worker : Worker) (looks : Nat) :
    Logs (fun g : Guarded (Journal × ω) => g.world.1) (k.journaled.waitForwarding worker looks)
      fun answer (events : Journal) =>
        ∀ status, answer = some (.ok status) → events.TellsEnd worker.pid status := by
  induction looks with
  | zero => exact .pure (by simp)
  | succ looks ih =>
    have kill (signal : Option Signal) : Logs Prod.fst (k.journaled.kill worker.pid signal)
        fun _ events => events = [.signalled worker.pid signal] := logs_noting _ _
    have pause : Logs Prod.fst
        (fun s : Journal × ω => ((), k.journaled.sleep forwardStep s)) fun _ events => events = [] :=
      .of_eq fun _ => ⟨rfl, rfl⟩
    refine .bind k.logs_takeSignal fun signal arrived _ => ?_
    split
    any_goals refine .bind (kill _).guarded fun _ sent _ => ?_
    -- whether or not a signal was passed on first, the worker is then asked after
    all_goals
      refine .bind (k.logs_tryWait worker).guarded fun answer asked told => ?_
      simp only [← List.append_assoc]
      cases answer with
      | error e => exact .pure (by simp)
      | ok status =>
        dsimp only
        cases hended : status.filter WaitStatus.hasEnded with
        | none =>
          refine .bind pause.guarded fun _ paused _ => ih.imp fun answer events h status hs => ?_
          simp only [← List.append_assoc]
          exact (h status hs).append_left _
        | some ended =>
          obtain ⟨rfl, hstatus⟩ := Option.filter_eq_some_iff.mp hended
          refine .pure fun status h => ?_
          cases h
          rw [told _ rfl, List.append_nil]
          exact Journal.TellsEnd.append_left ⟨hstatus, rfl⟩ _

theorem tellsEnd_followCommand (worker : Worker) (looks : Nat) :
    Logs (fun g : Guarded (Journal × ω) => g.world.1) (k.journaled.followCommand worker looks)
      fun how (events : Journal) => ∀ n, how = .code n →
        ∃ status, events.TellsEnd worker.pid status ∧ n = exitCode status := by
  have read : Logs Prod.fst (k.journaled.readReport worker) fun _ events => events = [] :=
    .of_keeps fun j => (k.quiet_journaled (· = j)).readReport worker
  refine .bind read.guarded fun report before _ => ?_
  cases report with
  | error e => exact .pure (by simp)
  | ok report =>
    refine .bind (k.tellsEnd_waitForwarding worker looks) fun answer events told => ?_
    rcases answer with _ | e | status <;> rcases report with _ | r
    case some.ok.none =>
      refine .pure fun n h => ?_
      cases h
      rw [List.append_nil]
      exact ⟨status, (told status rfl).append_left _, rfl⟩
    all_goals exact .pure (by simp)

theorem tellsEnd_runAs (id : Identity) (args : List Bytes) (looks : Nat) :
    Logs (fun g : Guarded (Journal × ω) => g.world.1) (k.journaled.runAs id args looks)
      fun how (events : Journal) => ∀ n, how = .code n →
        ∃ pid status, events.TellsEnd pid status ∧ n = exitCode status := by
  refine .bind .get fun g before hbefore => ?_
  subst hbefore
  have spawn : Logs Prod.fst (k.journaled.spawnAs id (k.journaled.commandBody args
      (k.journaled.environment g.world).entries)) fun _ _ => True := by
    intro s
    obtain ⟨start, hstart, -⟩ := k.log_spawnCommand id args _ s
    exact ⟨start, hstart, trivial⟩
  refine .bind spawn.guarded fun spawned events _ => ?_
  cases spawned with
  | error e => exact .pure (by simp)
  | ok worker =>
    refine (k.tellsEnd_followCommand worker looks).imp fun how later told n h => ?_
    obtain ⟨status, hend, hn⟩ := told n h
    exact ⟨worker.pid, status, hend.append_left _, hn⟩

/-- **What decides the code.** A step that comes to a code has had its mounts
set up. If signals had arrived by then, the code is the one for the last of
them, and nothing was asked for the command. If none had, the last thing that
was asked for the command was how a process has ended, and the code is the one
for that end, whatever signals were passed on. Undoing the mounts has no say. -/
theorem step_code (b : Backend ω) (id : Identity) (stored : Except MountError (Option Text))
    (tracker : Tracker) (args : List Bytes) {looks n : Nat} (g : Guarded (Journal × ω))
    (h : (k.journaled.step b.journaled id stored tracker args looks g).1.1 = .command (.code n)) :
    ∃ (xs : List Exchange) (before during after : List TerminationSignal) (command undo : Journal),
      (k.journaled.step b.journaled id stored tracker args looks g).2.world.1 =
        g.world.1 ++ .arrived before :: (xs.map .asked ++ .arrived during ::
          (command ++ (undo ++ [.arrived after]))) ∧
      CodeStandsFor n during command ∧ ∀ x ∈ undo, x.Undoes := by
  cases stored with
  | error e =>
    have hcatch := k.journaled.catchSignals_eq g
    rw [k.journaled.step_error hcatch] at h
    cases h
  | ok stored =>
    have returned : (k.journaled.step b.journaled id (.ok stored) tracker args looks g).1.1 ≠
        .command .unfinished := by
      rw [h]
      nofun
    obtain ⟨prelude, xs, how, g', hannounced, -, hrun, hend, -, undo, after, hundo, -, hundoes⟩ :=
      k.step_returned returned
    have hcode : how = .code n :=
      StepEnd.command.inj ((congrArg Prod.fst hend).symm.trans h)
    subst hcode
    obtain ⟨command, hcommand, hran⟩ := k.log_runUnlessSignalled
      (R := fun how events => ∀ n, how = .code n →
        ∃ pid status, events.TellsEnd pid status ∧ n = exitCode status)
      prelude.reached_eq (k.tellsEnd_runAs id args looks ⟨.catching, prelude.reached⟩)
    rw [hrun] at hcommand hran
    dsimp only at hcommand hran
    have hstands : CodeStandsFor n prelude.during command := by
      rcases hran with ⟨hnone, told⟩ | ⟨signal, hsignal, hcode, rfl⟩
      · exact Or.inr ⟨hnone, told n rfl⟩
      · exact Or.inl ⟨signal, hsignal, CommandEnd.code.inj hcode, rfl⟩
    refine ⟨xs, prelude.before, prelude.during, after, command, undo, ?_, hstands, hundoes⟩
    rw [hundo, hcommand, hannounced]
    simp only [List.append_assoc, List.cons_append]

end Kernel

-- the command is still running when a signal arrives, is passed it, and ends with a code of its own
example :
    let w : Dictation :=
      { starts := [9], ends := [.running, .exited 7], chunks := [],
        arrivals := [[], [], [.term]], outcomes := [], time := 0 }
    (Dictation.kernel.step Dictation.backend ⟨0, 0, none, []⟩ (.ok none) (.empty 0) [] 2
      ⟨.uniform .ignored, w⟩).1.1 = .command (.code 7) := by
  simp only [Kernel.step, Kernel.runUnlessSignalled, Kernel.runAs, Kernel.followCommand,
    Kernel.readReport]
  rw [Kernel.fill_eq_within 1]
  decide +kernel

end BucketMount
