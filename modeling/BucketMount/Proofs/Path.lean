import BucketMount.Path
import Mathlib.Data.List.Basic
import Mathlib.Logic.ExistsUnique

/-!
# Spellings of a path

Every absolute path has exactly one plain spelling (`existsUnique_plain`): the
one in which each piece after the first slash stands for a step. Two plain
spellings of one place are therefore the same bytes (`eq_of_same`).
-/

namespace BucketMount.PathName

/-- A spelling in which nothing is left out: all pieces after the first slash
stand for steps, unless it is the root. -/
def Plain (path : Bytes) : Prop :=
  path = [slash] ∨ ∀ piece ∈ (pieces path).tail, (step? piece).isSome

instance (path : Bytes) : Decidable (Plain path) := by
  unfold Plain
  infer_instance

/-- The piece that is written for a step. -/
def pieceOf : PathComponent → Bytes
  | .root => []
  | .here => [dot]
  | .parent => [dot, dot]
  | .entry name => name

/-- The plain spelling of an absolute path with these steps. -/
def spell (steps : List PathComponent) : Bytes :=
  slash :: [slash].intercalate (steps.map pieceOf)

variable {path p q piece : Bytes}

theorem pieceOf_of_step? {step : PathComponent} (h : step? piece = some step) :
    pieceOf step = piece := by
  unfold step? at h
  split at h
  · cases h
  · split at h
    · rename_i hparent
      cases h
      exact hparent.symm
    · cases h
      rfl

theorem pieces_cons (path : Bytes) : pieces (slash :: path) = [] :: pieces path := by
  have h := List.splitOn_append_cons_self (a := slash) [] path
  rwa [List.splitOn_nil] at h

theorem components_cons (path : Bytes) :
    components (slash :: path) = .root :: (pieces path).filterMap step? := by
  simp [components, pieces_cons, step?]

theorem map_pieceOf (ps : List Bytes) :
    (ps.filterMap step?).map pieceOf = ps.filter fun piece => (step? piece).isSome := by
  induction ps with
  | nil => rfl
  | cons piece ps ih =>
    cases hstep : step? piece with
    | none => simp [hstep, ih]
    | some step => simp [hstep, ih, pieceOf_of_step? hstep]

/-- A path that is spelled plainly is the spelling of its steps. -/
theorem spell_of_plain (h : Plain (slash :: path)) :
    spell ((pieces path).filterMap step?) = slash :: path := by
  rw [spell, map_pieceOf]
  rcases h with h | h
  · cases h
    rfl
  · rw [pieces_cons, List.tail_cons] at h
    rw [List.filter_eq_self.mpr h, pieces, List.intercalate_splitOn]

/-- Plain spellings of one place are equal. -/
theorem eq_of_same (hp : p.head? = some slash) (hq : q.head? = some slash)
    (hplain : Plain p) (hplain' : Plain q) (hsame : Same p q) : p = q := by
  obtain ⟨p, rfl⟩ := List.head?_eq_some_iff.mp hp
  obtain ⟨q, rfl⟩ := List.head?_eq_some_iff.mp hq
  rw [Same, components_cons, components_cons] at hsame
  rw [← spell_of_plain hplain, (List.cons.inj hsame).2, spell_of_plain hplain']

/-! ## Every path has a plain spelling -/

theorem slash_notMem_of_mem_pieces (h : piece ∈ pieces path) : slash ∉ piece := by
  unfold pieces at h
  induction path generalizing piece with
  | nil =>
    rw [List.splitOn_nil, List.mem_singleton] at h
    simp [h]
  | cons b path ih =>
    rw [List.splitOn_cons_eq_if_modifyHead] at h
    split at h
    · rcases List.mem_cons.mp h with rfl | h
      · simp
      · exact ih h
    · rename_i hb
      -- the first piece of the rest takes in the byte, which is no slash
      cases hrest : path.splitOn slash with
      | nil => exact absurd hrest (List.splitOn_ne_nil _ _)
      | cons first others =>
        rw [hrest, List.modifyHead_cons] at h
        rw [hrest] at ih
        rcases List.mem_cons.mp h with rfl | h
        · rw [List.mem_cons, not_or]
          exact ⟨fun hslash => hb (by simp [hslash]), ih List.mem_cons_self⟩
        · exact ih (List.mem_cons_of_mem _ h)

/-- The pieces that stand for steps. -/
def kept (path : Bytes) : List Bytes := (pieces path).filter fun piece => (step? piece).isSome

theorem spell_steps (path : Bytes) :
    spell ((pieces path).filterMap step?) = slash :: [slash].intercalate (kept path) := by
  rw [spell, map_pieceOf, kept]

theorem pieces_kept (h : kept path ≠ []) :
    pieces ([slash].intercalate (kept path)) = kept path := by
  apply List.splitOn_intercalate slash _ h
  intro piece hpiece
  exact slash_notMem_of_mem_pieces (List.mem_of_mem_filter hpiece)

theorem filterMap_kept (path : Bytes) :
    (kept path).filterMap step? = (pieces path).filterMap step? := by
  rw [kept, List.filterMap_filter]
  congr 1
  funext piece
  cases step? piece <;> rfl

theorem plain_spell (path : Bytes) : Plain (spell ((pieces path).filterMap step?)) := by
  rw [spell_steps]
  by_cases hnil : kept path = []
  · rw [hnil]
    exact Or.inl rfl
  · right
    rw [pieces_cons, List.tail_cons, pieces_kept hnil]
    intro piece hpiece
    exact (List.mem_filter.mp hpiece).2

theorem same_spell (path : Bytes) :
    Same (spell ((pieces path).filterMap step?)) (slash :: path) := by
  rw [spell_steps, Same, components_cons, components_cons, ← filterMap_kept path]
  by_cases hnil : kept path = []
  · rw [hnil]
    rfl
  · rw [pieces_kept hnil]

/-- An absolute path has exactly one plain spelling. -/
theorem existsUnique_plain (h : path.head? = some slash) :
    ∃! p, p.head? = some slash ∧ Plain p ∧ Same p path := by
  obtain ⟨rest, rfl⟩ := List.head?_eq_some_iff.mp h
  refine ⟨spell ((pieces rest).filterMap step?), ⟨rfl, plain_spell rest, same_spell rest⟩, ?_⟩
  rintro p ⟨hp, hplain, hsame⟩
  exact eq_of_same hp rfl hplain (plain_spell rest) (hsame.trans (same_spell rest).symm)

end BucketMount.PathName
