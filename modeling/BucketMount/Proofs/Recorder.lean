import BucketMount.Proofs.Stateful
import BucketMount.Worker.Basic

/-!
# Recorders

A system may have a second state beside its own (`Kernel.alongside`). If this is
a record, and an operation adds to it what was asked and answered (`recording`),
the system still answers as it always does. The program cannot look into the
record, so what a run has added to it is what the run has done.

`Logs` says what an operation adds to a record, and `Records` says besides that
it comes to what it comes to without one. Both are put together along the
operation, part by part.
-/

namespace BucketMount

variable {ε σ ω τ α β : Type}

/-- The system with a second state beside its own. -/
def Kernel.alongside (k : Kernel ω) (σ : Type) : Kernel (σ × ω) where
  toProcesses := k.toProcesses.beside σ
  stat caller path := beside (k.stat caller path)
  makeDir caller path mode := beside (k.makeDir caller path mode)
  hasEntries caller path := beside (k.hasEntries caller path)
  canWrite caller path := beside (k.canWrite caller path)
  credentials s := k.credentials s.2
  idRules := k.idRules
  account := k.account
  environment s := k.environment s.2
  workingDirectory s := k.workingDirectory s.2
  readFile path := beside (k.readFile path)
  print bytes := beside (k.print bytes)
  printError bytes := beside (k.printError bytes)
  openPipe := beside k.openPipe
  closeWriter pipe := beside (k.closeWriter pipe)
  write pipe bytes := beside (k.write pipe bytes)
  read pipe n := beside (k.read pipe n)
  fork := beside k.fork
  leave pid ending := beside (k.leave pid ending)
  exec caller args env := beside (k.exec caller args env)
  redirect pipe := beside (k.redirect pipe)
  await pid := beside (k.await pid)
  startReader words pipe := beside (k.startReader words pipe)
  run words := beside (k.run words)
  arrived := beside k.arrived
  interruptions s := k.interruptions s.2
  length_read pipe n s := k.length_read pipe n s.2
  interrupted_write pipe bytes s := k.interrupted_write pipe bytes s.2
  interrupted_read pipe n s := k.interrupted_read pipe n s.2
  interrupted_await pid s := k.interrupted_await pid s.2
  monotone_stat caller path s := k.monotone_stat caller path s.2
  monotone_openPipe s := k.monotone_openPipe s.2
  monotone_write pipe bytes s := k.monotone_write pipe bytes s.2
  monotone_fork s := k.monotone_fork s.2
  monotone_leave pid ending s := k.monotone_leave pid ending s.2
  monotone_await pid s := k.monotone_await pid s.2

/-- An operation that is written down: what is added may depend on the state
before it, the answer, and the state after it. -/
def recording (entries : ω → α → ω → List ε) (op : StateM ω α) : StateM (List ε × ω) α :=
  fun (record, w) =>
    let (a, w') := op w
    (a, record ++ entries w a w', w')

/-- An operation that is written down with its answer. -/
def noting (entries : α → List ε) (op : StateM ω α) : StateM (List ε × ω) α :=
  recording (fun _ a _ => entries a) op

/-! ## What an operation adds -/

/-- From any state, the operation adds entries with `Q` to the record. -/
def Logs (record : σ → List ε) (op : StateM σ α) (Q : α → List ε → Prop) : Prop :=
  ∀ s, ∃ added, record (op s).2 = record s ++ added ∧ Q (op s).1 added

namespace Logs

variable {record : σ → List ε} {op : StateM σ α} {next : α → StateM σ β}
variable {Q Q' : α → List ε → Prop} {R : β → List ε → Prop}

theorem of_eq (h : ∀ s, record (op s).2 = record s ∧ Q (op s).1 []) : Logs record op Q :=
  fun s => ⟨[], by rw [(h s).1, List.append_nil], (h s).2⟩

theorem pure {a : α} (h : Q a []) : Logs record (Pure.pure a : StateM σ α) Q :=
  of_eq fun _ => ⟨rfl, h⟩

theorem bind (first : Logs record op Q)
    (later : ∀ a before, Q a before →
      Logs record (next a) fun b after => R b (before ++ after)) :
    Logs record (op >>= next) R := by
  intro s
  obtain ⟨before, hbefore, hq⟩ := first s
  obtain ⟨after, hafter, hr⟩ := later _ before hq (op s).2
  exact ⟨before ++ after, by rw [← List.append_assoc, ← hbefore]; exact hafter, hr⟩

theorem imp (h : Logs record op Q) (post : ∀ a added, Q a added → Q' a added) :
    Logs record op Q' := by
  intro s
  obtain ⟨added, hadded, hq⟩ := h s
  exact ⟨added, hadded, post _ _ hq⟩

/-- A traversal, by what one element more in front makes of what is added. -/
theorem mapM {f : α → StateM σ β} {I : List α → List β → List ε → Prop} (nil : I [] [] [])
    (cons : ∀ a, Logs record (f a) fun b before =>
      ∀ as bs after, I as bs after → I (a :: as) (b :: bs) (before ++ after))
    (as : List α) : Logs record (as.mapM f) (I as) := by
  induction as with
  | nil => exact .pure nil
  | cons a as ih =>
    rw [List.mapM_cons]
    refine .bind (cons a) fun b before hb => .bind ih fun bs after hbs => .pure ?_
    rw [List.append_nil]
    exact hb as bs after hbs

theorem get : Logs record (MonadState.get : StateM σ σ) fun _ added => added = [] :=
  of_eq fun _ => ⟨rfl, rfl⟩

/-- What keeps the record as it is adds nothing. -/
theorem of_keeps (h : ∀ r, Keeps (fun s => record s = r) op) :
    Logs record op fun _ added => added = [] :=
  of_eq fun s => ⟨h (record s) s rfl, rfl⟩

theorem guarded (h : Logs record op Q) :
    Logs (fun g => record g.world) (Kernel.guarded op) Q :=
  fun g => h g.world

end Logs

theorem logs_noting (entries : α → List ε) (op : StateM ω α) :
    Logs Prod.fst (noting entries op) fun a added => added = entries a :=
  fun _ => ⟨_, rfl, rfl⟩

/-! ## With a record and without one -/

/-- With a record, `op'` comes to what `op` comes to without one, and adds entries
with `Q`, which may speak of what can be seen of the state before and after. -/
def Records (view : ω → τ) (op' : StateM (List ε × ω) α) (op : StateM ω α)
    (Q : τ → List ε → τ → α → Prop) : Prop :=
  ∀ record w, ∃ added, op' (record, w) = ((op w).1, record ++ added, (op w).2) ∧
    Q (view w) added (view (op w).2) (op w).1

namespace Records

variable {view : ω → τ} {op' : StateM (List ε × ω) α} {op : StateM ω α}
variable {Q : τ → List ε → τ → α → Prop} {R : τ → List ε → τ → β → Prop}

theorem recording {entries : ω → α → ω → List ε}
    (h : ∀ w, Q (view w) (entries w (op w).1 (op w).2) (view (op w).2) (op w).1) :
    Records view (recording entries op) op Q :=
  fun _ w => ⟨_, rfl, h w⟩

theorem pure {a : α} (h : ∀ t, Q t [] t a) :
    Records view (Pure.pure a : StateM (List ε × ω) α) (Pure.pure a) Q :=
  fun record w => ⟨[], by rw [List.append_nil]; rfl, h (view w)⟩

/-- What comes later goes on from where the first part has ended. -/
theorem bind {next' : α → StateM (List ε × ω) β} {next : α → StateM ω β}
    (first : Records view op' op Q)
    (later : ∀ a, Records view (next' a) (next a) fun t' after t'' b =>
      ∀ t before, Q t before t' a → R t (before ++ after) t'' b) :
    Records view (op' >>= next') (op >>= next) R := by
  intro record w
  obtain ⟨before, hfirst, hq⟩ := first record w
  obtain ⟨after, hlater, hr⟩ := later (op w).1 (record ++ before) (op w).2
  refine ⟨before ++ after, ?_, hr _ _ hq⟩
  change next' (op' (record, w)).1 (op' (record, w)).2 = _
  rw [hfirst, hlater, List.append_assoc]
  rfl

/-- A look at the state is a look at what can be seen of it, since nothing else
of it is of use. -/
theorem get {next' : List ε × ω → StateM (List ε × ω) β} {next : ω → StateM ω β}
    (later : ∀ record w, Records view (next' (record, w)) (next w) fun t after t' b =>
      t = view w → R t after t' b) :
    Records view (MonadState.get >>= next') (MonadState.get >>= next) R := by
  intro record w
  obtain ⟨after, hlater, hr⟩ := later record w record w
  exact ⟨after, hlater, hr rfl⟩

end Records
end BucketMount
