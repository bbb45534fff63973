import BucketMount.Step
import BucketMount.Proofs.Process.Charge
import Mathlib.Data.List.Perm.Subperm

/-!
# Which processes the program has in hand

A process that the program has started is in its hands until an answer about
it has said that it is gone, or until the program leaves it alone for good.
`Kernel.Custody` states what the operations of the system do to the processes
in hand, and the rules below follow them through a mount, a teardown and a
command: what each of them takes over, gives up and hands on.

A mount that succeeds hands on its helper and, if there is one, the reader of
the helper's output. A mount that fails hands on nothing.
-/

namespace BucketMount

/-- The processes of a record. -/
def MountRecord.processes (r : MountRecord) : List Pid := r.helper :: r.relay.toList

namespace Kernel

variable {ω : Type}

/-- `H held` is what holds while the processes `held` are in hand. -/
structure Custody (k : Kernel ω) (H : List Pid → ω → Prop) : Prop where
  quiet : ∀ held, k.Quiet (H held)
  exec : ∀ held caller args env, Keeps (H held) (k.exec caller args env)
  arrived : ∀ held, Keeps (H held) k.arrived
  fork : ∀ held, Ensures (H held) k.fork fun
    | .ok pid => H (pid :: held)
    | .error _ => H held
  startReader : ∀ held words pipe, Ensures (H held) (k.startReader words pipe) fun
    | .ok pid => H (pid :: held)
    | .error _ => H held
  kill : ∀ held pid signal, Keeps (H (pid :: held)) (k.kill pid signal)
  await : ∀ held pid, Ensures (H (pid :: held)) (k.await pid) fun answer =>
    if leavesOpen answer then H (pid :: held) else H held
  poll : ∀ held pid, Ensures (H (pid :: held)) (k.poll pid) fun answer =>
    if leavesOpen answer then H (pid :: held) else H held
  /-- A process can be stopped as if it were the only one. -/
  handling : ∀ held pid, ∃ P : ω → Prop,
    (∀ w, H (pid :: held) w → P w) ∧ k.Handling pid P (H held)
  /-- A process can be left alone for good. -/
  forget : ∀ {held held' : List Pid} {w : ω}, held'.Subperm held → H held w → H held' w

namespace Custody

variable {k : Kernel ω} {H : List Pid → ω → Prop}

theorem forget_append (h : k.Custody H) (given : List Pid) {held : List Pid} {w : ω}
    (hw : H (given ++ held) w) : H held w :=
  h.forget (List.sublist_append_right given held).subperm hw

/-! ## One process -/

theorem terminate (h : k.Custody H) (held : List Pid) (pid : Pid) (grace : Duration) :
    Ensures (H (pid :: held)) (k.terminate pid grace) fun _ => H held := by
  obtain ⟨P, hP, hhandling⟩ := h.handling held pid
  exact .imp hP (hhandling.terminate grace) fun _ _ hw => hw

theorem reapOrKill (h : k.Custody H) (held : List Pid) (pid : Pid) (grace : Duration) :
    Ensures (H (pid :: held)) (k.reapOrKill pid grace) fun _ => H held := by
  obtain ⟨P, hP, hhandling⟩ := h.handling held pid
  exact .imp hP (hhandling.reapOrKill grace) fun _ _ hw => hw

/-- Who has processes in hand is answerable for them. -/
theorem charge (h : k.Custody H) : k.Charge H where
  quiet := h.quiet
  exec := h.exec
  fork := h.fork
  startReader := h.startReader
  await := h.await
  poll := h.poll
  terminate := h.terminate
  reapOrKill := h.reapOrKill

theorem mount (h : k.Custody H) (held : List Pid) (c : Config) (d : Directive) (id : Identity) :
    Ensures (H held) (k.mount c d id) fun answer => H (handedOn answer ++ held) :=
  .imp (fun _ hw => hw) (h.charge.mount held c d id) fun _ _ ⟨left, hw, _⟩ =>
    h.forget_append left hw

/-! ## A teardown -/

theorem teardownRecord (h : k.Custody H) {backend : Backend ω}
    (unmount : ∀ held path, Keeps (H held) (backend.unmount path)) (held : List Pid)
    (grace : Duration) (r : MountRecord) :
    Ensures (H (r.processes ++ held)) (Tracker.teardownRecord backend k.toProcesses grace r)
      fun _ => H held := by
  obtain ⟨path, helper, relay⟩ := r
  refine .bind (unmount _ path) fun detached => ?_
  refine .bind (h.terminate _ helper grace) fun stopped => ?_
  cases relay with
  | none => exact .bind (.pure fun _ hw => hw) fun _ => .pure fun _ hw => hw
  | some relay =>
    have ended : Ensures (H (relay :: held)) ((some relay).mapM fun pid => k.reapOrKill pid grace)
        fun _ => H held := h.reapOrKill held relay grace
    exact .bind ended fun _ => .pure fun _ hw => hw

theorem drain (h : k.Custody H) {backend : Backend ω}
    (unmount : ∀ held path, Keeps (H held) (backend.unmount path)) (held : List Pid) (t : Tracker) :
    Ensures (H (t.records.flatMap MountRecord.processes ++ held))
      (t.drain backend k.toProcesses) fun _ => H held := by
  -- the records are undone from the last to the first
  have hrecords : ∀ w, H (t.records.flatMap MountRecord.processes ++ held) w →
      H (t.records.reverse.flatMap MountRecord.processes ++ held) w := by
    intro w hw
    refine h.forget (List.Perm.subperm ?_) hw
    exact ((List.reverse_perm t.records).flatMap_right _).append_right held
  refine .bind (.imp hrecords (.mapM (I := fun rs => H (rs.flatMap MountRecord.processes ++ held))
    (fun r rs => ?_) t.records.reverse) fun _ _ hw => hw) fun _ => .pure fun _ hw => hw
  rw [List.flatMap_cons, List.append_assoc]
  exact h.teardownRecord unmount _ t.grace r

/-! ## A command -/

theorem spawnCommand (h : k.Custody H) (held : List Pid) (id : Identity) (args env : List Bytes) :
    Ensures (H held) (k.spawnAs id (k.commandBody args env)) fun
      | .ok worker => H (worker.pid :: held)
      | .error _ => H held := by
  refine h.charge.spawnAs held fun pid caller pipe => ?_
  refine .bind (h.exec _ caller args env) fun answer => ?_
  cases answer with
  | none => exact .pure fun _ hw => hw
  | some e => exact .bind ((h.quiet _).report pipe _) fun _ => .pure fun _ hw => hw

theorem waitForwarding (h : k.Custody H) (held : List Pid) (worker : Worker) (looks : Nat) :
    Ensures (fun g => H (worker.pid :: held) g.world) (k.waitForwarding worker looks) fun
      answer g => if answer.isNone then H (worker.pid :: held) g.world else H held g.world :=
  ensures_waitForwarding (h.quiet _).sleep (h.arrived _) (fun _ => h.kill held _ _)
    (h.poll held worker.pid) looks

end Custody
end Kernel
end BucketMount
