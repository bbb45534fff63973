import BucketMount.Text.Basic

/-!
# Computations with a state

A traversal in a state monad makes its steps one after the other, each in the
state that the one before has left. `Chain` says this of any kind of step, so
that what one step is described by carries over to the traversal (`chain_mapM`).
-/

namespace BucketMount

variable {σ α β : Type}

/-- From `s`, one step for each element in turn, with the results of the steps,
leads to the last state. -/
inductive Chain (step : α → σ → β → σ → Prop) : List α → σ → List β → σ → Prop where
  | nil (s : σ) : Chain step [] s [] s
  | cons {a : α} {as : List α} {s s₁ s' : σ} {b : β} {bs : List β} (head : step a s b s₁)
      (tail : Chain step as s₁ bs s') : Chain step (a :: as) s (b :: bs) s'

theorem mapM_cons_run (f : α → StateM σ β) (a : α) (as : List α) (s : σ) :
    (a :: as).mapM f s =
      let (b, s₁) := f a s
      let (bs, s') := as.mapM f s₁
      (b :: bs, s') := by
  rw [List.mapM_cons]
  rfl

/-- A traversal is a chain of its steps. -/
theorem chain_mapM {step : α → σ → β → σ → Prop} {f : α → StateM σ β}
    (h : ∀ a s, step a s (f a s).1 (f a s).2) (as : List α) (s : σ) :
    Chain step as s (as.mapM f s).1 (as.mapM f s).2 := by
  induction as generalizing s with
  | nil => exact .nil s
  | cons a as ih =>
    rw [mapM_cons_run]
    exact .cons (h a s) (ih (f a s).2)

/-! ## One operation after the other -/

/-- What comes next is done with the answer of the first operation, in the state
that it has left. -/
theorem bind_of_eq {op : StateM σ α} {next : α → StateM σ β} {a : α} {s s' : σ}
    (h : op s = (a, s')) : (op >>= next) s = next a s' := by
  change next (op s).1 (op s).2 = _
  rw [h]

theorem bind_get {next : σ → StateM σ β} {s : σ} : (MonadState.get >>= next) s = next s s := rfl

/-- What is done before a fixed answer does not change it. -/
theorem fst_bind_pure {op : StateM σ α} {b : β} {s : σ} : ((op >>= fun _ => pure b) s).1 = b := rfl

/-! ## What an operation ensures -/

/-- From every state with `P` the operation leads to an answer and a state
with `Q`. -/
def Ensures (P : σ → Prop) (op : StateM σ α) (Q : α → σ → Prop) : Prop :=
  ∀ s, P s → Q (op s).1 (op s).2

/-- The operation keeps `I`, whatever it answers. -/
abbrev Keeps (I : σ → Prop) (op : StateM σ α) : Prop := Ensures I op fun _ => I

namespace Ensures

variable {P P' : σ → Prop} {Q Q' : α → σ → Prop} {R : β → σ → Prop}
variable {op : StateM σ α} {next : α → StateM σ β}

theorem pure {a : α} (h : ∀ s, P s → Q a s) : Ensures P (Pure.pure a : StateM σ α) Q := h

theorem get : Keeps P (MonadState.get : StateM σ σ) := fun _ h => h

theorem bind (first : Ensures P op Q) (later : ∀ a, Ensures (Q a) (next a) R) :
    Ensures P (op >>= next) R :=
  fun s h => later _ _ (first s h)

/-- The same, with what holds of every answer of the first operation. -/
theorem bind_of_answer {A : α → Prop} (first : Ensures P op Q) (answers : ∀ s, A (op s).1)
    (later : ∀ a, A a → Ensures (Q a) (next a) R) : Ensures P (op >>= next) R :=
  fun s h => later _ (answers s) _ (first s h)

theorem imp (pre : ∀ s, P' s → P s) (h : Ensures P op Q) (post : ∀ a s, Q a s → Q' a s) :
    Ensures P' op Q' :=
  fun s hs => post _ _ (h s (pre s hs))

/-- What holds afterwards may be chosen by the answer in either of two ways. -/
theorem of_ite {ι : Type} {I : ι → σ → Prop} {c : α → Bool} {i i' : ι}
    (h : Ensures P op fun a => I (if c a then i else i')) :
    Ensures P op fun a => if c a then I i else I i' := by
  intro s hs
  have hi := h s hs
  cases hc : c (op s).1 <;> simpa [hc] using hi

/-- A traversal, by what is to hold when some elements are still to come. -/
theorem mapM {f : α → StateM σ β} {I : List α → σ → Prop}
    (step : ∀ a as, Ensures (I (a :: as)) (f a) fun _ => I as) (as : List α) :
    Ensures (I as) (as.mapM f) fun _ => I [] := by
  induction as with
  | nil => exact .pure fun _ h => h
  | cons a as ih =>
    rw [List.mapM_cons]
    exact .bind (step a as) fun _ => .bind ih fun _ => .pure fun _ h => h

theorem forM {I : σ → Prop} {f : α → StateM σ PUnit} (step : ∀ a, Keeps I (f a)) (as : List α) :
    Keeps I (as.forM f) := by
  induction as with
  | nil => exact .pure fun _ h => h
  | cons a as ih =>
    rw [List.forM_eq_forM, List.forM_cons]
    exact .bind (step a) fun _ => ih

end Ensures
end BucketMount
