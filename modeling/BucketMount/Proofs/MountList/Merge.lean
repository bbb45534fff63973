import BucketMount.MountList.Merge
import BucketMount.Proofs.Fallible
import Mathlib.Data.List.Induction
import Mathlib.Data.List.Nodup
import Mathlib.Data.List.Pairwise

/-!
# What a merge leads to

Merging goes through the candidates one after the other. What comes of it is
said here without that order: it succeeds exactly if no candidate conflicts
with an entry or with another candidate (`Compatible`), and then the candidates that
are new follow the list, each once and in their order (`extended`).
-/

namespace BucketMount

namespace Directive

theorem Conflicts.symm {d e : Directive} (h : d.Conflicts e) : e.Conflicts d :=
  ⟨h.1.symm, h.2.symm⟩

theorem not_conflicts_self (d : Directive) : ¬d.Conflicts d := fun h => h.2 rfl

end Directive

namespace MountList

/-- The list with one more candidate, unless it is already there. -/
def withEntry (l : MountList) (c : Directive) : MountList := if c ∈ l then l else l ++ [c]

/-- The candidates that a list does not have yet, each once, in their order. -/
def newcomers (l candidates : MountList) : MountList :=
  (candidates.filter (· ∉ l)).eraseDups

/-- The list followed by its newcomers. -/
def extended (l candidates : MountList) : MountList := l ++ newcomers l candidates

/-- Candidates that may be added to a list: none of them conflicts with an
entry of the list or with another one. -/
def Compatible (l candidates : MountList) : Prop :=
  ∀ c ∈ candidates, (∀ e ∈ l, ¬e.Conflicts c) ∧ ∀ e ∈ candidates, ¬e.Conflicts c

/-! ## The extended list -/

theorem mem_withEntry {l : MountList} {c d : Directive} :
    d ∈ l.withEntry c ↔ d ∈ l ∨ d = c := by
  unfold withEntry
  split
  · rename_i hc
    constructor
    · exact Or.inl
    · rintro (hd | rfl)
      · exact hd
      · exact hc
  · simp

theorem nodup_withEntry {l : MountList} (h : l.Nodup) (c : Directive) :
    (l.withEntry c).Nodup := by
  unfold withEntry
  split
  · exact h
  · rename_i hc
    rw [List.nodup_append_comm]
    exact List.nodup_cons.mpr ⟨hc, h⟩

@[simp] theorem extended_nil (l : MountList) : l.extended [] = l := List.append_nil l

/-- A candidate counts as an entry for those after it. -/
theorem extended_cons (l candidates : MountList) (c : Directive) :
    l.extended (c :: candidates) = (l.withEntry c).extended candidates := by
  unfold extended newcomers withEntry
  split
  · rename_i hc
    simp [hc]
  · rename_i hc
    -- erasing a new candidate from the rest is filtering by the longer list
    rw [List.filter_cons_of_pos (by simpa using hc), List.eraseDups_cons, List.filter_filter,
      List.append_assoc, List.singleton_append]
    congr 4
    funext d
    by_cases hd : d ∈ l <;> by_cases hdc : d = c <;> simp [hd, hdc]

theorem extended_append (l cs cs' : MountList) :
    l.extended (cs ++ cs') = (l.extended cs).extended cs' := by
  induction cs generalizing l with
  | nil => simp
  | cons c cs ih => rw [List.cons_append, extended_cons, extended_cons, ih]

theorem mem_extended {l candidates : MountList} {d : Directive} :
    d ∈ l.extended candidates ↔ d ∈ l ∨ d ∈ candidates := by
  induction candidates generalizing l with
  | nil => simp
  | cons c candidates ih =>
    rw [extended_cons, ih, mem_withEntry, List.mem_cons]
    exact or_assoc

theorem nodup_extended {l : MountList} (h : l.Nodup) (candidates : MountList) :
    (l.extended candidates).Nodup := by
  induction candidates generalizing l with
  | nil => simpa using h
  | cons c candidates ih =>
    rw [extended_cons]
    exact ih (nodup_withEntry h c)

theorem mem_newcomers {l candidates : MountList} {d : Directive} :
    d ∈ newcomers l candidates ↔ d ∈ candidates ∧ d ∉ l := by
  simp [newcomers, List.mem_eraseDups]

theorem nodup_newcomers (l candidates : MountList) : (newcomers l candidates).Nodup := by
  have h := nodup_extended List.nodup_nil (candidates.filter (· ∉ l))
  simpa [extended, newcomers] using h

/-- The order of the candidates decides only about the order of the newcomers. -/
theorem extended_perm {l cs cs' : MountList} (h : ∀ d, d ∈ cs ↔ d ∈ cs') :
    (l.extended cs).Perm (l.extended cs') := by
  apply List.Perm.append_left
  rw [List.perm_ext_iff_of_nodup (nodup_newcomers l cs) (nodup_newcomers l cs')]
  intro d
  rw [mem_newcomers, mem_newcomers, h d]

/-- Candidates that are all there already add nothing. -/
theorem extended_of_subset {l candidates : MountList} (h : ∀ c ∈ candidates, c ∈ l) :
    l.extended candidates = l := by
  have hnew : newcomers l candidates = [] := by
    rw [List.eq_nil_iff_forall_not_mem]
    intro d hd
    obtain ⟨hcandidate, hold⟩ := mem_newcomers.mp hd
    exact hold (h d hcandidate)
  rw [extended, hnew, List.append_nil]

/-- A search finds the same entry whether or not repetitions have been left out. -/
theorem find?_extended (p : Directive → Bool) (l candidates : MountList) :
    (l.extended candidates).find? p = (l ++ candidates).find? p := by
  induction candidates generalizing l with
  | nil => simp
  | cons c candidates ih =>
    rw [extended_cons, ih, withEntry]
    split
    · rename_i hc
      -- the candidate that is left out is found in the list, if at all
      by_cases hp : p c
      · have hfound : (l.find? p).isSome := List.find?_isSome.mpr ⟨c, hc, hp⟩
        rw [List.find?_append, List.find?_append, Option.or_of_isSome hfound,
          Option.or_of_isSome hfound]
      · rw [List.find?_append, List.find?_append, List.find?_cons_of_neg hp]
    · rw [List.append_assoc, List.singleton_append]

/-! ## Compatible candidates -/

/-- Whether candidates are compatible does not depend on their order. -/
theorem compatible_congr {l cs cs' : MountList} (h : ∀ d, d ∈ cs ↔ d ∈ cs') :
    l.Compatible cs ↔ l.Compatible cs' := by
  unfold Compatible
  simp only [h]

theorem Compatible.of_subset {l cs cs' : MountList} (h : l.Compatible cs)
    (hsub : ∀ c ∈ cs', c ∈ cs) : l.Compatible cs' := by
  intro c hc
  obtain ⟨hl, hcs⟩ := h c (hsub c hc)
  exact ⟨hl, fun e he => hcs e (hsub e he)⟩

theorem compatible_cons_iff {l candidates : MountList} {c : Directive} :
    l.Compatible (c :: candidates) ↔
      (∀ e ∈ l, ¬e.Conflicts c) ∧ (l.withEntry c).Compatible candidates := by
  constructor
  · intro h
    refine ⟨(h c List.mem_cons_self).1, ?_⟩
    intro d hd
    obtain ⟨hl, hcs⟩ := h d (List.mem_cons_of_mem _ hd)
    refine ⟨?_, fun e he => hcs e (List.mem_cons_of_mem _ he)⟩
    intro e he
    rcases mem_withEntry.mp he with he | rfl
    · exact hl e he
    · exact hcs e List.mem_cons_self
  · -- two of the rest are kept apart by `h`; the new entry is an entry for `h`
    rintro ⟨hc, h⟩ d hd
    rcases List.mem_cons.mp hd with rfl | hd
    · refine ⟨hc, ?_⟩
      intro e he hconf
      rcases List.mem_cons.mp he with rfl | he
      · exact Directive.not_conflicts_self _ hconf
      · exact (h e he).1 d (mem_withEntry.mpr (Or.inr rfl)) hconf.symm
    · obtain ⟨hl, hcs⟩ := h d hd
      refine ⟨fun e he => hl e (mem_withEntry.mpr (Or.inl he)), ?_⟩
      intro e he
      rcases List.mem_cons.mp he with rfl | he
      · exact hl e (mem_withEntry.mpr (Or.inr rfl))
      · exact hcs e he

/-- Candidates can be added in two parts. -/
theorem compatible_append_iff {l cs cs' : MountList} :
    l.Compatible (cs ++ cs') ↔ l.Compatible cs ∧ (l.extended cs).Compatible cs' := by
  induction cs generalizing l with
  | nil =>
    rw [List.nil_append, extended_nil]
    exact ⟨fun h => ⟨fun c hc => absurd hc List.not_mem_nil, h⟩, And.right⟩
  | cons c cs ih =>
    rw [List.cons_append, compatible_cons_iff, compatible_cons_iff, extended_cons, ih, and_assoc]

/-- Candidates that have been added do not conflict with the list they are in. -/
theorem Compatible.extended_self {l candidates : MountList} (h : l.Compatible candidates) :
    (l.extended candidates).Compatible candidates := by
  have htwice : l.Compatible (candidates ++ candidates) :=
    h.of_subset fun c hc => (List.mem_append.mp hc).elim id id
  exact (compatible_append_iff.mp htwice).2

/-- Candidates that are there stay compatible while others are added. -/
theorem Compatible.extended_of_subset {l cs cs' : MountList} (h : l.Compatible cs)
    (hsub : ∀ c ∈ cs, c ∈ l) (h' : l.Compatible cs') : (l.extended cs').Compatible cs := by
  have hboth : l.Compatible (cs ++ cs') := by
    rw [compatible_append_iff, MountList.extended_of_subset hsub]
    exact ⟨h, h'⟩
  -- the others were checked against these, and a conflict has no direction
  have hswap : l.Compatible (cs' ++ cs) :=
    (compatible_congr fun _ => List.perm_append_comm.mem_iff).mp hboth
  exact (compatible_append_iff.mp hswap).2

/-- Compatible candidates leave a list free of conflicts. -/
theorem Compatible.free_extended {l candidates : MountList} (h : l.Compatible candidates)
    (hfree : ∀ d ∈ l, ∀ e ∈ l, ¬d.Conflicts e) :
    ∀ d ∈ l.extended candidates, ∀ e ∈ l.extended candidates, ¬d.Conflicts e := by
  intro d hd e he hconf
  rcases mem_extended.mp hd with hd | hd
  · rcases mem_extended.mp he with he | he
    · exact hfree d hd e he hconf
    · exact (h e he).1 d hd hconf
  · rcases mem_extended.mp he with he | he
    · exact (h d hd).1 e he hconf.symm
    · exact (h e he).2 d hd hconf

/-- It is enough to look at the list and at the candidates before. -/
theorem compatible_iff_pairwise {l candidates : MountList} :
    l.Compatible candidates ↔
      (∀ c ∈ candidates, ∀ e ∈ l, ¬e.Conflicts c) ∧
        candidates.Pairwise fun e c => ¬e.Conflicts c := by
  constructor
  · intro h
    refine ⟨fun c hc => (h c hc).1, ?_⟩
    exact List.pairwise_of_forall_mem_list fun e he c hc => (h c hc).2 e he
  · rintro ⟨hl, hpairwise⟩ c hc
    refine ⟨hl c hc, fun e he => ?_⟩
    -- a conflict has no direction, and no directive conflicts with itself
    have hsymm : Std.Symm fun e c : Directive => ¬e.Conflicts c :=
      ⟨fun _ _ h hconf => h hconf.symm⟩
    exact hpairwise.forall_of_forall (fun d _ => d.not_conflicts_self) he hc

/-! ## Merging -/

theorem check_eq_ok_iff {l : MountList} {c : Directive} :
    l.check c = .ok () ↔ ∀ e ∈ l, ¬e.Conflicts c := by
  unfold check
  cases hfind : l.find? (·.Conflicts c) with
  | some e =>
    have he : e.Conflicts c := by simpa using List.find?_some hfind
    constructor
    · intro h
      cases h
    · intro h
      exact absurd he (h e (List.mem_of_find?_eq_some hfind))
  | none => simpa using hfind

theorem add_eq_ok_iff {l m : MountList} {c : Directive} :
    l.add c = .ok m ↔ (∀ e ∈ l, ¬e.Conflicts c) ∧ m = l.withEntry c := by
  rw [← check_eq_ok_iff]
  unfold add withEntry
  cases l.check c with
  | error e => simp [Except.map]
  | ok u => simp [Except.map, eq_comm]

/-- A merge succeeds exactly if the candidates are compatible with the list,
and then appends the new ones. -/
theorem merge_eq_ok_iff {l candidates m : MountList} :
    l.merge candidates = .ok m ↔ l.Compatible candidates ∧ m = l.extended candidates := by
  induction candidates generalizing l with
  | nil =>
    constructor
    · intro h
      cases h
      exact ⟨fun c hc => absurd hc List.not_mem_nil, (extended_nil _).symm⟩
    · rintro ⟨_, rfl⟩
      rw [extended_nil]
      rfl
  | cons c candidates ih =>
    have hstep : l.merge (c :: candidates) = l.add c >>= fun m => m.merge candidates :=
      List.foldlM_cons
    rw [hstep, bind_eq_ok_iff, compatible_cons_iff, extended_cons]
    simp only [add_eq_ok_iff, ih]
    constructor
    · rintro ⟨_, ⟨hfree, rfl⟩, hcomp, hm⟩
      exact ⟨⟨hfree, hcomp⟩, hm⟩
    · rintro ⟨⟨hfree, hcomp⟩, hm⟩
      exact ⟨l.withEntry c, ⟨hfree, rfl⟩, hcomp, hm⟩

/-! ## Where a merge stops -/

/-- A candidate is refused for the first entry that it conflicts with. -/
theorem check_eq_error_iff {l : MountList} {c : Directive} {e : MountError} :
    l.check c = .error e ↔ ∃ entry, l.find? (·.Conflicts c) = some entry ∧
      e = .conflict c.path entry.bucket.describe c.bucket.describe := by
  unfold check
  cases hfind : l.find? (·.Conflicts c) with
  | some entry => simp [eq_comm]
  | none => simp

theorem add_eq_error_iff {l : MountList} {c : Directive} {e : MountError} :
    l.add c = .error e ↔ l.check c = .error e := by
  unfold add
  cases l.check c <;> simp [Except.map]

/-- A merge stops at the first candidate that conflicts with the list or with a
candidate before it, and names the first entry of these that is in the way. -/
theorem merge_eq_error_iff {l candidates : MountList} {e : MountError} :
    l.merge candidates = .error e ↔
      ∃ before c after entry, candidates = before ++ c :: after ∧ l.Compatible before ∧
        (l ++ before).find? (·.Conflicts c) = some entry ∧
        e = .conflict c.path entry.bucket.describe c.bucket.describe := by
  constructor
  · intro h
    induction candidates using List.reverseRecOn with
    | nil => cases h
    | append_singleton candidates c ih =>
      rw [merge, List.foldlM_append, bind_eq_error_iff] at h
      rcases h with h | ⟨m, hm, h⟩
      · obtain ⟨before, d, after, entry, rfl, hbefore, hentry, he⟩ := ih h
        exact ⟨before, d, after ++ [c], entry, by simp, hbefore, hentry, he⟩
      · obtain ⟨hbefore, rfl⟩ := merge_eq_ok_iff.mp hm
        rw [List.foldlM_cons, bind_eq_error_iff] at h
        rcases h with h | ⟨_, _, h⟩
        · obtain ⟨entry, hentry, he⟩ := check_eq_error_iff.mp (add_eq_error_iff.mp h)
          rw [find?_extended] at hentry
          exact ⟨candidates, c, [], entry, rfl, hbefore, hentry, he⟩
        · cases h
  · rintro ⟨before, c, after, entry, rfl, hbefore, hentry, he⟩
    rw [merge, List.foldlM_append, bind_eq_error_iff]
    refine Or.inr ⟨_, merge_eq_ok_iff.mpr ⟨hbefore, rfl⟩, ?_⟩
    rw [List.foldlM_cons, bind_eq_error_iff]
    rw [← find?_extended] at hentry
    exact Or.inl (add_eq_error_iff.mpr (check_eq_error_iff.mpr ⟨entry, hentry, he⟩))

/-! ## The exact merge -/

/-- **Exact merge.** Candidates can be merged into a list, whatever it holds,
exactly if none of them claims a path for another bucket than an entry of the
list or another candidate does; the order of the candidates plays no part in
this. The list is then followed by the candidates that it lacks, each where it
occurs first. All candidates are in the result, it repeats nothing if the list
repeated nothing, and it is free of conflicts if the list was; merging the
candidates once more changes nothing. A merge fails at the first candidate that
conflicts with the list or with an earlier candidate, and the error names this
candidate and the first of those entries that it conflicts with. -/
theorem merge_exact (l candidates : MountList) :
    ((∃ m, l.merge candidates = .ok m) ↔
      ∀ c ∈ candidates, (∀ e ∈ l, ¬e.Conflicts c) ∧ ∀ e ∈ candidates, ¬e.Conflicts c) ∧
    (∀ candidates', candidates.Perm candidates' →
      ((∃ m, l.merge candidates = .ok m) ↔ ∃ m, l.merge candidates' = .ok m)) ∧
    (∀ m, l.merge candidates = .ok m →
      m = l ++ (candidates.filter (· ∉ l)).eraseDups ∧
      (∀ c ∈ candidates, c ∈ m) ∧
      (l.Nodup → m.Nodup) ∧
      ((∀ d ∈ l, ∀ e ∈ l, ¬d.Conflicts e) → ∀ d ∈ m, ∀ e ∈ m, ¬d.Conflicts e) ∧
      m.merge candidates = .ok m) ∧
    ∀ error, l.merge candidates = .error error ↔
      ∃ before c after entry, candidates = before ++ c :: after ∧
        ((∀ d ∈ before, ∀ e ∈ l, ¬e.Conflicts d) ∧
          before.Pairwise fun e d => ¬e.Conflicts d) ∧
        (l ++ before).find? (·.Conflicts c) = some entry ∧
        error = .conflict c.path entry.bucket.describe c.bucket.describe := by
  have hok : ∀ cs : MountList, (∃ m, l.merge cs = .ok m) ↔ l.Compatible cs := by
    intro cs
    simp only [merge_eq_ok_iff, exists_and_left, exists_eq, and_true]
  refine ⟨hok candidates, ?_, ?_, ?_⟩
  · intro candidates' hperm
    rw [hok, hok]
    exact compatible_congr fun _ => hperm.mem_iff
  · intro m hm
    obtain ⟨hcomp, rfl⟩ := merge_eq_ok_iff.mp hm
    have hall : ∀ c ∈ candidates, c ∈ l.extended candidates :=
      fun c hc => mem_extended.mpr (Or.inr hc)
    refine ⟨rfl, hall, fun h => nodup_extended h candidates, hcomp.free_extended, ?_⟩
    exact merge_eq_ok_iff.mpr ⟨hcomp.extended_self, (extended_of_subset hall).symm⟩
  · intro error
    simp only [merge_eq_error_iff, compatible_iff_pairwise]

end MountList
end BucketMount
