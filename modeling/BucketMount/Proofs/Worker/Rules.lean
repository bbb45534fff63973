import BucketMount.Helper.Unmount
import BucketMount.Mountpoint.Preparation
import BucketMount.Mountpoint.UserProbe
import BucketMount.Proofs.Process.Rules

/-!
# Workers, as rules

Most of what the program asks of the system neither starts a process nor ends
one nor asks after one. `Kernel.Quiet` says of such operations that they keep
an invariant; then reading and writing a report, looking at a path, preparing
and detaching one keep it as well. For the operations that do start a worker
and wait for it there is one rule each, with what holds before, meanwhile and
afterwards left to the user.
-/

namespace BucketMount

namespace Kernel

variable {ω : Type}

/-- The operations that have nothing to do with other processes keep `I`. -/
structure Quiet (k : Kernel ω) (I : ω → Prop) : Prop where
  sleep : ∀ d w, I w → I (k.sleep d w)
  stat : ∀ caller path, Keeps I (k.stat caller path)
  makeDir : ∀ caller path mode, Keeps I (k.makeDir caller path mode)
  hasEntries : ∀ caller path, Keeps I (k.hasEntries caller path)
  canWrite : ∀ caller path, Keeps I (k.canWrite caller path)
  printError : ∀ bytes, Keeps I (k.printError bytes)
  openPipe : Keeps I k.openPipe
  closeWriter : ∀ pipe, Keeps I (k.closeWriter pipe)
  write : ∀ pipe bytes, Keeps I (k.write pipe bytes)
  read : ∀ pipe n, Keeps I (k.read pipe n)
  leave : ∀ pid ending, Keeps I (k.leave pid ending)
  redirect : ∀ pipe, Keeps I (k.redirect pipe)
  run : ∀ words, Keeps I (k.run words)

variable {k : Kernel ω} {I P Q : ω → Prop}

/-! ## Reports -/

theorem Quiet.send (h : k.Quiet I) (pipe : Pipe) (bytes : Bytes) : Keeps I (k.send pipe bytes) := by
  intro w hw
  fun_induction k.send pipe bytes w with
  | case1 w => exact hw
  | case2 w b rest w' hwrite =>
    have := h.write pipe (b :: rest) w hw
    rwa [hwrite] at this
  | case3 w b rest n w' hwrite ih =>
    have := h.write pipe (b :: rest) w hw
    rw [hwrite] at this
    exact ih this
  | case4 w b rest w' hwrite ih =>
    have := h.write pipe (b :: rest) w hw
    rw [hwrite] at this
    exact ih this
  | case5 w b rest e w' hwrite he =>
    have := h.write pipe (b :: rest) w hw
    rwa [hwrite] at this

theorem Quiet.report (h : k.Quiet I) (pipe : Pipe) (r : Report) : Keeps I (k.report pipe r) :=
  h.send pipe r.encode

theorem Quiet.fill (h : k.Quiet I) (pipe : Pipe) (got : Bytes) : Keeps I (k.fill pipe got) := by
  intro w hw
  fun_induction k.fill pipe got w with
  | case1 got w hgot w' hread =>
    have := h.read pipe (Report.size - got.length) w hw
    rwa [hread] at this
  | case2 got w hgot b chunk w' hread ih =>
    have := h.read pipe (Report.size - got.length) w hw
    rw [hread] at this
    exact ih this
  | case3 got w hgot w' hread ih =>
    have := h.read pipe (Report.size - got.length) w hw
    rw [hread] at this
    exact ih this
  | case4 got w hgot e w' hread he =>
    have := h.read pipe (Report.size - got.length) w hw
    rwa [hread] at this
  | case5 got w hfull => exact hw

theorem Quiet.readReport (h : k.Quiet I) (worker : Worker) : Keeps I (k.readReport worker) := by
  refine .bind (h.fill worker.status []) fun answer => ?_
  cases answer with
  | error e => exact .pure fun _ hw => hw
  | ok bytes =>
    dsimp only
    split
    · exact .pure fun _ hw => hw
    split
    · split <;> exact .pure fun _ hw => hw
    · exact .pure fun _ hw => hw

/-! ## Paths -/

theorem Quiet.isMounted (h : k.Quiet I) (caller : Credentials) (path : Bytes) :
    Keeps I (k.isMounted caller path) := by
  refine .bind (h.stat caller path) fun answer => ?_
  split
  · exact .pure fun _ hw => hw
  · exact .bind (h.stat caller _) fun _ => .pure fun _ hw => hw

theorem Quiet.prepare (h : k.Quiet I) (caller : Credentials) (path : Bytes) (uid mode : Nat) :
    Keeps I (k.prepare caller path uid mode) := by
  refine .bind (h.stat caller path) fun answer => ?_
  split
  · exact .bind (h.makeDir caller path _) fun _ => .pure fun _ hw => hw
  · exact .pure fun _ hw => hw
  · rename_i info
    split
    · exact .pure fun _ hw => hw
    split
    · exact .pure fun _ hw => hw
    refine .bind (h.hasEntries caller path) fun answer => ?_
    split
    · exact .pure fun _ hw => hw
    · exact .pure fun _ hw => hw
    · exact .bind (h.canWrite caller path) fun _ => .pure fun _ hw => hw

theorem Quiet.isMountedHere (h : k.Quiet I) (path : Bytes) : Keeps I (k.isMountedHere path) :=
  .bind .get fun w => h.isMounted (k.credentials w) path

theorem Quiet.detach (h : k.Quiet I) (command : List Text) (path : Bytes) :
    Keeps I (k.detach command path) := by
  cases command with
  | nil => exact .pure fun _ hw => hw
  | cons word words => exact h.run _

theorem Quiet.unmount (h : k.Quiet I) (c : Config) (path : Bytes) :
    Keeps I (k.unmount c path) := by
  refine .bind (h.isMountedHere path) fun before => ?_
  split
  · exact .pure fun _ hw => hw
  refine .bind (h.detach c.unmountCommand path) fun _ => ?_
  refine .bind (h.isMountedHere path) fun between => ?_
  split
  · exact .pure fun _ hw => hw
  refine .bind (h.detach c.lazyUnmountCommand path) fun _ => ?_
  refine .bind (h.isMountedHere path) fun after => ?_
  split <;> exact .pure fun _ hw => hw

/-! ## Starting a worker -/

theorem ensures_live {id : Identity} {body : Credentials → Pipe → StateM ω Ending}
    (quiet : k.Quiet P) (letGo : ∀ w, P w → Q w)
    (run : ∀ caller pipe, Ensures P (body caller pipe) fun _ => Q)
    (pipe : Pipe) : Ensures P (k.live id body pipe) fun _ => Q := by
  refine .bind .get fun w => ?_
  split
  · exact run _ _
  · exact .bind (quiet.report pipe _) fun _ => .pure letGo

/-- A worker takes from `P` to `B` when it starts, and from `B` to `C` by what
it does before it leaves. -/
theorem ensures_spawnAs {id : Identity} {body : Credentials → Pipe → StateM ω Ending}
    {B C : Pid → ω → Prop} (openPipe : Keeps P k.openPipe)
    (fork : Ensures P k.fork fun
      | .ok pid => B pid
      | .error _ => P)
    (live : ∀ pid pipe, Ensures (B pid) (k.live id body pipe) fun _ => C pid)
    (leave : ∀ pid ending, Keeps (C pid) (k.leave pid ending)) :
    Ensures P (k.spawnAs id body) fun
      | .ok worker => C worker.pid
      | .error _ => P := by
  refine .bind openPipe fun opened => ?_
  cases opened with
  | error e => exact .pure fun _ hw => hw
  | ok pipe =>
    refine .bind fork fun forked => ?_
    cases forked with
    | error e => exact .pure fun _ hw => hw
    | ok pid =>
      refine .bind (live pid pipe) fun ending => ?_
      exact .bind (leave pid ending) fun _ => .pure fun _ hw => hw

/-! ## Waiting for a worker -/

theorem ensures_awaitEnd {pid : Pid}
    (await : Ensures P (k.await pid) fun answer => if leavesOpen answer then P else Q) :
    Ensures P (k.awaitEnd pid) fun _ => Q := by
  intro w hw
  -- each turn is entered with what its answer will leave, since the cases name the answer
  have hanswer := await w hw
  fun_induction k.awaitEnd pid w with
  | case1 w status w' h hended =>
    rw [h] at hanswer
    simpa [leavesOpen, hended] using hanswer
  | case2 w status w' h hgoes ih =>
    rw [h] at hanswer
    have hopen : P w' := by simpa [leavesOpen, hgoes] using hanswer
    exact ih hopen (await w' hopen)
  | case3 w w' h ih =>
    rw [h] at hanswer
    exact ih hanswer (await w' hanswer)
  | case4 w e w' h he =>
    rw [h] at hanswer
    simpa [leavesOpen, he] using hanswer

theorem ensures_tryWait {worker : Worker}
    (poll : Ensures P (k.poll worker.pid) fun answer => if leavesOpen answer then P else Q) :
    Ensures P (k.tryWait worker) fun
      | .ok status => if (status.filter WaitStatus.hasEnded).isNone then P else Q
      | .error _ => Q := by
  refine .bind poll fun answer => ?_
  cases answer with
  | ok status => cases status <;> exact .pure fun _ hw => hw
  | error e => cases e <;> exact .pure fun _ hw => hw

/-- A question for the path of a job user starts a worker and waits for it. -/
theorem keeps_isMountedAs {B : Pid → ω → Prop} (openPipe : Keeps P k.openPipe)
    (fork : Ensures P k.fork fun
      | .ok pid => B pid
      | .error _ => P)
    (quiet : ∀ pid, k.Quiet (B pid))
    (await : ∀ pid, Ensures (B pid) (k.await pid) fun answer =>
      if leavesOpen answer then B pid else P)
    (id : Identity) (path : Bytes) : Keeps P (k.isMountedAs id path) := by
  unfold isMountedAs
  split
  · exact .pure fun _ hw => hw
  refine .bind (ensures_spawnAs (C := B) openPipe fork (fun pid => ?_)
    fun pid => (quiet pid).leave pid) fun spawned => ?_
  · refine ensures_live (quiet pid) (fun _ hw => hw) fun caller _ => ?_
    exact .bind ((quiet pid).isMounted caller path) fun _ => .pure fun _ hw => hw
  · cases spawned with
    | error e => exact .pure fun _ hw => hw
    | ok worker =>
      refine .bind (ensures_awaitEnd (await worker.pid)) fun ended => ?_
      split <;> exact .pure fun _ hw => hw

/-! ## While signals may be caught -/

theorem ensures_guarded {α : Type} {R : α → ω → Prop} {op : StateM ω α} (h : Ensures P op R) :
    Ensures (fun g => P g.world) (guarded op) fun a g => R a g.world :=
  fun g hg => h g.world hg

theorem keeps_takeSignal (arrived : Keeps P k.arrived) :
    Keeps (fun g => P g.world) k.takeSignal :=
  fun g hg => arrived g.world hg

/-- A worker that signals are passed on to is let go once it has ended or
cannot be asked after. -/
theorem ensures_waitForwarding {worker : Worker} (sleep : ∀ d w, P w → P (k.sleep d w))
    (arrived : Keeps P k.arrived) (kill : ∀ signal, Keeps P (k.kill worker.pid signal))
    (poll : Ensures P (k.poll worker.pid) fun answer => if leavesOpen answer then P else Q)
    (looks : Nat) :
    Ensures (fun g => P g.world) (k.waitForwarding worker looks) fun answer g =>
      if answer.isNone then P g.world else Q g.world := by
  have pause : Keeps P (fun w => ((), k.sleep forwardStep w) : StateM ω Unit) := sleep forwardStep
  induction looks with
  | zero => exact .pure fun _ hg => hg
  | succ looks ih =>
    refine .bind (keeps_takeSignal arrived) fun signal => ?_
    split
    any_goals refine .bind (ensures_guarded (kill _)) fun _ => ?_
    -- whether or not a signal was passed on first, the worker is then asked after
    all_goals
      refine .bind (ensures_guarded (ensures_tryWait poll)) fun answer => ?_
      cases answer with
      | error e => exact .pure fun _ hg => hg
      | ok status =>
        dsimp only
        generalize status.filter WaitStatus.hasEnded = ended
        cases ended with
        | some status => exact .pure fun _ hg => hg
        | none => exact .bind (ensures_guarded pause) fun _ => ih

end Kernel
end BucketMount
