import BucketMount.Helper.Basic
import BucketMount.Proofs.Worker.Rules

/-!
# What a mount leaves behind

The program is answerable for every process that it starts until it has seen to
it or hands it on. `Kernel.Charge` states what the operations of the system do
to the processes it is answerable for, and the rules below follow them through a
mount.

A mount that succeeds hands on its helper and, if there is one, the reader of
the helper's output. A mount that fails has seen to all it has started, unless
the error is one of those it passes on as they come (`MountError.Abandons`):
then it returns at once, whatever still runs.
-/

namespace BucketMount

/-- The processes that a mount hands on. -/
def handedOn : Except MountError MountOutcome → List Pid
  | .ok (.mounted helper relay) => helper :: relay.toList
  | _ => []

/-- The reader of a helper's output, if there is one. -/
def readers (relay : Option (Pid × Pipe)) : List Pid := (relay.map Prod.fst).toList

/-- The errors of a mount that does not look after what it has started: a status
that cannot be read or means nothing, and a helper that cannot be asked after. -/
def MountError.Abandons : MountError → Prop
  | .io (.readStatus _) => True
  | .spawn (.truncatedStatus _ _) => True
  | .spawn (.unknownStatus _) => True
  | .spawn (.wait _ _) => True
  | _ => False

/-- What holds after a mount that may have left processes behind. -/
def Leaving {ω : Type} (H : List Pid → ω → Prop) (held : List Pid)
    (answer : Except MountError MountOutcome) (w : ω) : Prop :=
  ∃ left, H (left ++ (handedOn answer ++ held)) w ∧
    (left = [] ∨ ∃ e, answer = .error e ∧ e.Abandons)

theorem leaving_nothing {ω : Type} {H : List Pid → ω → Prop} {held : List Pid}
    {answer : Except MountError MountOutcome} {w : ω} (hw : H (handedOn answer ++ held) w) :
    Leaving H held answer w :=
  ⟨[], hw, Or.inl rfl⟩

theorem leaving_error {ω : Type} {H : List Pid → ω → Prop} {held : List Pid} {e : MountError}
    (left : List Pid) (he : e.Abandons) {w : ω} (hw : H (left ++ held) w) :
    Leaving H held (.error e) w :=
  ⟨left, hw, Or.inr ⟨e, rfl, he⟩⟩

/-- The wait for a helper fails only because the helper cannot be asked after. -/
theorem Processes.abandons_of_awaitReady {ω : Type} (os : Processes ω) (pid : Pid)
    (interval deadline : Nat) (probe : Probe os.toClock) (w : ω) {e : MountError}
    (h : (os.awaitReady pid interval deadline probe w).1 = .error e) : e.Abandons := by
  fun_induction os.awaitReady pid interval deadline probe w with
  | case1 => cases h
  | case2 w w₁ hprobe answer w₂ hpoll result hdecided =>
    unfold Readiness.decided at hdecided
    split at hdecided
    · split at hdecided <;> cases hdecided
      cases h
    · cases hdecided
    · cases hdecided
      cases h
      trivial
  | case3 w w₁ hprobe answer w₂ hpoll hdecided hlt ih => exact ih h
  | case4 => cases h

namespace Kernel

variable {ω : Type}

/-- A report that cannot be had is an error that is passed on. -/
theorem abandons_of_readReport (k : Kernel ω) (worker : Worker) (w : ω) {e : MountError}
    (h : (k.readReport worker w).1 = .error e) : e.Abandons := by
  have answered : Ensures (fun _ => True) (k.readReport worker) fun answer _ =>
      ∀ e, answer = .error e → e.Abandons := by
    refine .bind (Q := fun _ _ => True) (fun _ _ => trivial) fun answer => ?_
    cases answer with
    | error e =>
      refine .pure fun _ _ e he => ?_
      cases he
      trivial
    | ok bytes =>
      dsimp only
      split
      · exact .pure fun _ _ => nofun
      split
      · split
        · exact .pure fun _ _ => nofun
        · refine .pure fun _ _ e he => ?_
          cases he
          trivial
      · refine .pure fun _ _ e he => ?_
        cases he
        trivial
  exact answered w trivial e h

/-- `H held` is what holds while the program is answerable for the processes
`held`. -/
structure Charge (k : Kernel ω) (H : List Pid → ω → Prop) : Prop where
  quiet : ∀ held, k.Quiet (H held)
  exec : ∀ held caller args env, Keeps (H held) (k.exec caller args env)
  fork : ∀ held, Ensures (H held) k.fork fun
    | .ok pid => H (pid :: held)
    | .error _ => H held
  startReader : ∀ held words pipe, Ensures (H held) (k.startReader words pipe) fun
    | .ok pid => H (pid :: held)
    | .error _ => H held
  await : ∀ held pid, Ensures (H (pid :: held)) (k.await pid) fun answer =>
    if leavesOpen answer then H (pid :: held) else H held
  poll : ∀ held pid, Ensures (H (pid :: held)) (k.poll pid) fun answer =>
    if leavesOpen answer then H (pid :: held) else H held
  terminate : ∀ held pid grace, Ensures (H (pid :: held)) (k.terminate pid grace) fun _ => H held
  reapOrKill : ∀ held pid grace, Ensures (H (pid :: held)) (k.reapOrKill pid grace) fun _ => H held

namespace Charge

variable {k : Kernel ω} {H : List Pid → ω → Prop}

theorem wait (h : k.Charge H) (held : List Pid) (worker : Worker) :
    Ensures (H (worker.pid :: held)) (k.wait worker) fun _ => H held :=
  ensures_awaitEnd (h.await held worker.pid)

theorem isMountedAs (h : k.Charge H) (held : List Pid) (id : Identity) (path : Bytes) :
    Keeps (H held) (k.isMountedAs id path) :=
  keeps_isMountedAs (B := fun pid => H (pid :: held)) (h.quiet held).openPipe (h.fork held)
    (fun pid => h.quiet (pid :: held)) (h.await held) id path

theorem spawnAs (h : k.Charge H) (held : List Pid) {id : Identity}
    {body : Credentials → Pipe → StateM ω Ending}
    (run : ∀ pid caller pipe, Keeps (H (pid :: held)) (body caller pipe)) :
    Ensures (H held) (k.spawnAs id body) fun
      | .ok worker => H (worker.pid :: held)
      | .error _ => H held :=
  ensures_spawnAs (B := fun pid => H (pid :: held)) (C := fun pid => H (pid :: held))
    (h.quiet held).openPipe (h.fork held)
    (fun pid pipe => ensures_live (h.quiet _) (fun _ hw => hw) (run pid) pipe)
    fun pid => (h.quiet (pid :: held)).leave pid

theorem startRelay (h : k.Charge H) (held : List Pid) (command : List Text) :
    Ensures (H held) (k.startRelay command) fun answer =>
      H (readers answer.toOption.join ++ held) := by
  cases command with
  | nil => exact .pure fun _ hw => hw
  | cons program args =>
    refine .bind (h.quiet held).openPipe fun opened => ?_
    cases opened with
    | error e => exact .pure fun _ hw => hw
    | ok pipe =>
      refine .bind (h.startReader held _ pipe) fun started => ?_
      cases started with
      | ok pid => exact .pure fun _ hw => hw
      | error fault =>
        exact .bind ((h.quiet held).closeWriter pipe) fun _ => .pure fun _ hw => hw

theorem releaseRelay (h : k.Charge H) (held : List Pid) (c : Config)
    (relay : Option (Pid × Pipe)) :
    Ensures (H (readers relay ++ held)) (k.releaseRelay c relay) fun _ => H held := by
  cases relay with
  | none => exact .pure fun _ hw => hw
  | some relay => exact .bind (h.reapOrKill held relay.1 _) fun _ => .pure fun _ hw => hw

theorem helperBody (h : k.Charge H) (held : List Pid) (path : Bytes) (uid mode : Nat)
    (relay : Option Pipe) (args env : List Bytes) (caller : Credentials) (status : Pipe) :
    Keeps (H held) (k.helperBody path uid mode relay args env caller status) := by
  have failed (r : Report) : Keeps (H held) (helperBody.failed k status r) :=
    .bind ((h.quiet held).report status r) fun _ => .pure fun _ hw => hw
  have start : Keeps (H held) (helperBody.start k args env caller status) := by
    refine .bind (h.exec held caller args env) fun answer => ?_
    cases answer with
    | none => exact .pure fun _ hw => hw
    | some e => exact failed _
  refine .bind ((h.quiet held).prepare caller path uid mode) fun prepared => ?_
  cases prepared with
  | error r => exact failed r
  | ok _ =>
    cases relay with
    | none => exact start
    | some pipe =>
      refine .bind ((h.quiet held).redirect pipe) fun redirected => ?_
      cases redirected with
      | error e => exact failed _
      | ok _ => exact start

theorem awaitMount (h : k.Charge H) (held : List Pid) (c : Config) (id : Identity) (d : Directive)
    (helper : Pid) (relay : Option (Pid × Pipe)) :
    Ensures (H (helper :: (readers relay ++ held))) (k.awaitMount c id d helper relay)
      (Leaving H held) := by
  refine .bind .get fun w => ?_
  refine .bind_of_answer (A := fun result => ∀ e, result = .error e → e.Abandons)
    (Processes.ensures_awaitReady (h.quiet _).sleep (h.isMountedAs _ id _) (h.poll _ helper))
    (fun w e => Processes.abandons_of_awaitReady _ _ _ _ _ w) fun result hresult => ?_
  rcases result with e | (_ | status | _)
  · exact .pure fun _ hw => leaving_error (readers relay) (hresult e rfl) hw
  · exact .pure fun _ hw => leaving_nothing hw
  · exact .bind (h.releaseRelay held c relay) fun _ => .pure fun _ hw => leaving_nothing hw
  · refine .bind (h.terminate _ helper _) fun _ => ?_
    exact .bind (h.releaseRelay held c relay) fun _ => .pure fun _ hw => leaving_nothing hw

theorem followWorker (h : k.Charge H) (held : List Pid) (c : Config) (id : Identity)
    (d : Directive) (worker : Worker) (relay : Option (Pid × Pipe)) :
    Ensures (H (worker.pid :: (readers relay ++ held))) (k.followWorker c id d worker relay)
      (Leaving H held) := by
  refine .bind_of_answer (A := fun answer => ∀ e, answer = .error e → e.Abandons)
    ((h.quiet _).readReport worker) (fun w e => k.abandons_of_readReport worker w)
    fun answer hanswer => ?_
  rcases answer with e | (_ | r)
  · exact .pure fun _ hw =>
      leaving_error (worker.pid :: readers relay) (hanswer e rfl) hw
  · exact h.awaitMount held c id d worker.pid relay
  · refine .bind (h.wait _ worker) fun _ => ?_
    exact .bind (h.releaseRelay held c relay) fun _ => .pure fun _ hw => leaving_nothing hw

theorem startHelper (h : k.Charge H) (held : List Pid) (c : Config) (id : Identity) (d : Directive)
    (args env : List Bytes) :
    Ensures (H held) (k.startHelper c id d args env) (Leaving H held) := by
  refine .bind (h.startRelay held c.logRelayCommand) fun started => ?_
  dsimp only
  generalize started.toOption.join = relay
  refine .bind (h.spawnAs _ fun _ => h.helperBody _ _ _ _ _ args env) fun spawned => ?_
  -- the program closes its own end of the pipe whether or not there is a worker
  rcases spawned with e | worker <;> rcases relay with _ | ⟨reader, pipe⟩
  · exact .bind (h.releaseRelay held c none) fun _ => .pure fun _ hw => leaving_nothing hw
  · refine .bind ((h.quiet _).closeWriter pipe) fun _ => ?_
    exact .bind (h.releaseRelay held c (some (reader, pipe))) fun _ => .pure fun _ hw => leaving_nothing hw
  · exact h.followWorker held c id d worker none
  · refine .bind ((h.quiet _).closeWriter pipe) fun _ => ?_
    exact h.followWorker held c id d worker (some (reader, pipe))

theorem mount (h : k.Charge H) (held : List Pid) (c : Config) (d : Directive) (id : Identity) :
    Ensures (H held) (k.mount c d id) (Leaving H held) := by
  refine .bind (h.isMountedAs held id _) fun mounted => ?_
  split
  · exact .pure fun _ hw => leaving_nothing hw
  refine .bind .get fun w => ?_
  dsimp only
  split
  · exact .pure fun _ hw => leaving_nothing hw
  · exact .pure fun _ hw => leaving_nothing hw
  · exact h.startHelper held c id d _ _

end Charge
end Kernel
end BucketMount
