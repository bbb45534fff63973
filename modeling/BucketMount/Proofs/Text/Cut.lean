import BucketMount.Text.Blank

/-!
# Cutting a text

A text that is cut at some characters is gaps and pieces in turn (`Cut`), where
a piece begins and ends as far out as it can. There is one way only to see a
text so (`cut_iff`). So the pieces are not empty, have no character in them at
which the text is cut, and put together they are the text without those.

The words of a text are its pieces if it is cut at the blanks.
-/

namespace BucketMount.Text

/-- A text and its pieces: a piece has a gap or nothing before it, and a
character at which the text is cut or nothing after it. -/
inductive Cut (p : Char → Bool) : Text → List Text → Prop where
  | gap {g : Text} (gap : ∀ c ∈ g, p c) : Cut p g []
  | piece {g w t : Text} {ws : List Text} (gap : ∀ c ∈ g, p c) (ne_nil : w ≠ [])
      (solid : ∀ c ∈ w, ¬p c) (ends : ∀ c ∈ t.head?, p c) (later : Cut p t ws) :
      Cut p (g ++ (w ++ t)) (w :: ws)

/-- What is left of a text that is split, without what is empty. -/
def pieces (p : Char → Bool) (t : Text) : List Text := (t.splitOnP p).filter (· ≠ [])

variable {p : Char → Bool} {c : Char} {g w t : Text} {ws : List Text}

/-! ## How a text is cut -/

theorem pieces_nil : pieces p [] = [] := rfl

theorem pieces_append_cons (h : p c) (s t : Text) :
    pieces p (s ++ c :: t) = pieces p s ++ pieces p t := by
  unfold pieces
  rw [List.splitOnP_append_cons s t h, List.filter_append]

theorem pieces_cons (h : p c) (t : Text) : pieces p (c :: t) = pieces p t :=
  pieces_append_cons h [] t

theorem pieces_gap_append (h : ∀ c ∈ g, p c) (t : Text) : pieces p (g ++ t) = pieces p t := by
  induction g with
  | nil => rfl
  | cons c g ih =>
    obtain ⟨hc, hg⟩ := List.forall_mem_cons.mp h
    rw [List.cons_append, pieces_cons hc, ih hg]

theorem pieces_of_solid (ne_nil : w ≠ []) (h : ∀ c ∈ w, ¬p c) : pieces p w = [w] := by
  unfold pieces
  rw [List.splitOnP_eq_singleton fun c hc => eq_false_of_ne_true (h c hc)]
  exact List.filter_cons_of_pos (by simpa using ne_nil)

/-- A piece goes up to the character after it at which the text is cut. -/
theorem pieces_solid_append (ne_nil : w ≠ []) (solid : ∀ c ∈ w, ¬p c)
    (ends : ∀ c ∈ t.head?, p c) : pieces p (w ++ t) = w :: pieces p t := by
  cases t with
  | nil => rw [List.append_nil, pieces_of_solid ne_nil solid, pieces_nil]
  | cons c t =>
    have hc : p c := ends c rfl
    rw [pieces_append_cons hc, pieces_of_solid ne_nil solid, pieces_cons hc]
    rfl

namespace Cut

/-! ## There is one way to cut it -/

theorem pieces_eq (h : Cut p t ws) : pieces p t = ws := by
  induction h with
  | @gap g gap => rw [← List.append_nil g, pieces_gap_append gap, pieces_nil]
  | piece gap ne_nil solid ends later ih =>
    rw [pieces_gap_append gap, pieces_solid_append ne_nil solid ends, ih]

theorem cons_gap (h : Cut p t ws) (hc : p c) : Cut p (c :: t) ws := by
  cases h with
  | gap gap => exact .gap (List.forall_mem_cons.mpr ⟨hc, gap⟩)
  | piece gap ne_nil solid ends later =>
    exact .piece (List.forall_mem_cons.mpr ⟨hc, gap⟩) ne_nil solid ends later

/-- Any other character belongs to the piece that follows it, if one follows at
once. -/
theorem exists_cons (h : Cut p t ws) (hc : ¬p c) : ∃ ws, Cut p (c :: t) ws := by
  have alone (ends : ∀ d ∈ t.head?, p d) : Cut p (c :: t) ([c] :: ws) := by
    refine .piece (g := []) (w := [c]) (List.forall_mem_nil _) (List.cons_ne_nil _ _) ?_ ends h
    intro d hd
    rwa [List.mem_singleton.mp hd]
  cases h with
  | @gap g gap => exact ⟨_, alone fun d hd => gap d (List.mem_of_head? hd)⟩
  | @piece g w t ws gap ne_nil solid ends later =>
    cases g with
    | nil =>
      exact ⟨_, .piece (g := []) (List.forall_mem_nil _) (List.cons_ne_nil c w)
        (List.forall_mem_cons.mpr ⟨hc, solid⟩) ends later⟩
    | cons d g =>
      exact ⟨_, alone fun e he => gap e (List.mem_of_head? he)⟩

end Cut

theorem exists_cut (p : Char → Bool) (t : Text) : ∃ ws, Cut p t ws := by
  induction t with
  | nil => exact ⟨[], .gap (List.forall_mem_nil _)⟩
  | cons c t ih =>
    obtain ⟨ws, h⟩ := ih
    by_cases hc : p c
    · exact ⟨ws, h.cons_gap hc⟩
    · exact h.exists_cons hc

theorem cut_iff : Cut p t ws ↔ pieces p t = ws := by
  refine ⟨Cut.pieces_eq, ?_⟩
  rintro rfl
  obtain ⟨ws, h⟩ := exists_cut p t
  rwa [h.pieces_eq]

/-! ## What pieces are like -/

namespace Cut

theorem ne_nil (h : Cut p t ws) : ∀ w ∈ ws, w ≠ [] := by
  induction h with
  | gap => exact List.forall_mem_nil _
  | piece gap ne_nil solid ends later ih => exact List.forall_mem_cons.mpr ⟨ne_nil, ih⟩

theorem solid (h : Cut p t ws) : ∀ w ∈ ws, ∀ c ∈ w, ¬p c := by
  induction h with
  | gap => exact List.forall_mem_nil _
  | piece gap ne_nil solid ends later ih => exact List.forall_mem_cons.mpr ⟨solid, ih⟩

theorem flatten_eq (h : Cut p t ws) : ws.flatten = t.filter fun c => !p c := by
  induction h with
  | gap gap => exact (List.filter_eq_nil_iff.mpr (by simpa using gap)).symm
  | @piece g w t ws gap ne_nil solid ends later ih =>
    have hg : (g.filter fun c => !p c) = [] := List.filter_eq_nil_iff.mpr (by simpa using gap)
    have hw : (w.filter fun c => !p c) = w := List.filter_eq_self.mpr (by simpa using solid)
    rw [List.flatten_cons, List.filter_append, List.filter_append, hg, hw, ih, List.nil_append]

end Cut

/-! ## Words -/

/-- A text and its words. -/
abbrev Worded : Text → List Text → Prop := Cut isBlank

theorem worded_iff : Worded t ws ↔ words t = ws := cut_iff

theorem worded_words (t : Text) : Worded t (words t) := worded_iff.mpr rfl

/-- Blanks around a text and between its words do not count. -/
example : words " --a\t\u2003--b:c ".toList = ["--a".toList, "--b:c".toList] := by decide

end BucketMount.Text
