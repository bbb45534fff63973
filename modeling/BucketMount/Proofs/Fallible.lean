import Mathlib.Data.List.Forall2

/-!
# Computations that can fail

What success of a composed computation says about its parts: a sequence of
two steps succeeds if both do (`bind_eq_ok_iff`), and a traversal succeeds if
it does so element by element (`mapM_eq_ok_iff`). Every reader and every
check of the program is put together from these two.
-/

namespace BucketMount

variable {ε α β : Type}

theorem bind_eq_ok_iff {x : Except ε α} {f : α → Except ε β} {b : β} :
    x >>= f = .ok b ↔ ∃ a, x = .ok a ∧ f a = .ok b := by
  cases x with
  | error e =>
    constructor
    · intro h
      cases h
    · rintro ⟨a, ha, _⟩
      cases ha
  | ok a =>
    constructor
    · intro h
      exact ⟨a, rfl, h⟩
    · rintro ⟨a', ha, h⟩
      cases ha
      exact h

theorem bind_eq_error_iff {x : Except ε α} {f : α → Except ε β} {e : ε} :
    x >>= f = .error e ↔ x = .error e ∨ ∃ a, x = .ok a ∧ f a = .error e := by
  cases x with
  | error e' =>
    constructor
    · intro h
      cases h
      exact Or.inl rfl
    · rintro (h | ⟨a, ha, _⟩)
      · cases h
        rfl
      · cases ha
  | ok a =>
    constructor
    · intro h
      exact Or.inr ⟨a, rfl, h⟩
    · rintro (h | ⟨a', ha, h⟩)
      · cases h
      · cases ha
        exact h

/-- A traversal succeeds exactly when it does so at every element. -/
theorem mapM_eq_ok_iff {f : α → Except ε β} {as : List α} {bs : List β} :
    as.mapM f = .ok bs ↔ List.Forall₂ (fun a b => f a = .ok b) as bs := by
  induction as generalizing bs with
  | nil =>
    rw [List.mapM_nil, List.forall₂_nil_left_iff]
    constructor
    · intro h
      cases h
      rfl
    · rintro rfl
      rfl
  | cons a as ih =>
    simp only [List.mapM_cons, bind_eq_ok_iff, List.forall₂_cons_left_iff, ih]
    constructor
    · rintro ⟨b, hb, bs', hbs, h⟩
      cases h
      exact ⟨b, bs', hb, hbs, rfl⟩
    · rintro ⟨b, bs', hb, hbs, rfl⟩
      exact ⟨b, hb, bs', hbs, rfl⟩

/-- A traversal succeeds if every step has a result. -/
theorem exists_mapM_eq_ok_iff {f : α → Except ε β} {as : List α} :
    (∃ bs, as.mapM f = .ok bs) ↔ ∀ a ∈ as, ∃ b, f a = .ok b := by
  simp only [mapM_eq_ok_iff]
  induction as with
  | nil => simp
  | cons a as ih =>
    simp only [List.forall₂_cons_left_iff, List.forall_mem_cons, ← ih]
    constructor
    · rintro ⟨_, b, bs, hb, hbs, rfl⟩
      exact ⟨⟨b, hb⟩, bs, hbs⟩
    · rintro ⟨⟨b, hb⟩, bs, hbs⟩
      exact ⟨b :: bs, b, bs, hb, hbs, rfl⟩

/-- A traversal of two lists in a row is one of each. -/
theorem mapM_append_eq_ok_iff {f : α → Except ε β} {as as' : List α} {cs : List β} :
    (as ++ as').mapM f = .ok cs ↔
      ∃ bs bs', as.mapM f = .ok bs ∧ as'.mapM f = .ok bs' ∧ cs = bs ++ bs' := by
  rw [List.mapM_append]
  simp only [bind_eq_ok_iff]
  constructor
  · rintro ⟨bs, hbs, bs', hbs', h⟩
    cases h
    exact ⟨bs, bs', hbs, hbs', rfl⟩
  · rintro ⟨bs, bs', hbs, hbs', rfl⟩
    exact ⟨bs, hbs, bs', hbs', rfl⟩

/-- A traversal by steps that all succeed without a change of the element. -/
theorem mapM_self_eq_ok {f : α → Except ε α} {as : List α} (h : ∀ a ∈ as, f a = .ok a) :
    as.mapM f = .ok as :=
  mapM_eq_ok_iff.mpr (List.forall₂_same.mpr h)

/-- What a successful traversal found was found at some element. -/
theorem exists_of_mem_of_mapM_eq_ok {f : α → Except ε β} {as : List α} {bs : List β} {b : β}
    (h : as.mapM f = .ok bs) (hb : b ∈ bs) : ∃ a ∈ as, f a = .ok b := by
  have hall := mapM_eq_ok_iff.mp h
  induction hall with
  | nil => cases hb
  | @cons a b' as bs ha htail ih =>
    rcases List.mem_cons.mp hb with rfl | hb
    · exact ⟨a, List.mem_cons_self, ha⟩
    · obtain ⟨a', ha', hf⟩ := ih (mapM_eq_ok_iff.mpr htail) hb
      exact ⟨a', List.mem_cons_of_mem _ ha', hf⟩

/-- The error of a traversal is the one of some element. -/
theorem exists_of_mapM_eq_error {f : α → Except ε β} {as : List α} {e : ε}
    (h : as.mapM f = .error e) : ∃ a ∈ as, f a = .error e := by
  induction as with
  | nil => cases h
  | cons a as ih =>
    rw [List.mapM_cons, bind_eq_error_iff] at h
    rcases h with h | ⟨b, _, h⟩
    · exact ⟨a, List.mem_cons_self, h⟩
    · rcases bind_eq_error_iff.mp h with h | ⟨bs, _, h⟩
      · obtain ⟨a', ha', hf⟩ := ih h
        exact ⟨a', List.mem_cons_of_mem _ ha', hf⟩
      · cases h

end BucketMount
