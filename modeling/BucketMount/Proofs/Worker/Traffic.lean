import BucketMount.Proofs.Recorder
import Mathlib.Logic.Function.Basic

/-!
# What goes through pipes

A system with the same answers as another, except that its pipes carry what is
written to them (`Kernel.piped`). How much each call takes and which calls a
signal interrupts is laid down in the state, so a law about all states is a law
about all ways in which a report can be cut into pieces on its way.

A read finds whatever has been written and not been read yet. That the writer
may be behind the reader needs no other reading: what has not been written yet
is what a short read leaves for later.
-/

namespace BucketMount

/-- How much each of the next calls moves: `some n` stands for up to `n + 1`
bytes, `none` for a call that a signal interrupts. After these, calls move all
they are asked to. -/
abbrev Pace := List (Option Nat)

/-- How many of `n` bytes the next call moves, and how the calls after it go. -/
def Pace.next (n : Nat) : Pace → Option Nat × Pace
  | [] => (some n, [])
  | call :: pace => (call.map fun most => min n (most + 1), pace)

/-- All that the next call can do. -/
theorem Pace.next_cases (n : Nat) (pace : Pace) :
    (∃ pace', pace.next n = (none, pace') ∧ pace'.count none < pace.count none) ∨
    ∃ moved pace', pace.next n = (some moved, pace') ∧ moved ≤ n ∧ (0 < n → 0 < moved) := by
  cases pace with
  | nil => exact Or.inr ⟨n, [], rfl, Nat.le_refl n, id⟩
  | cons call pace =>
    cases call with
    | none => exact Or.inl ⟨pace, rfl, by simp⟩
    | some most => exact Or.inr ⟨min n (most + 1), pace, rfl, by omega, by omega⟩

/-- What is in the pipes, and which workers have left. -/
structure Traffic where
  /-- What was written to a pipe and has not been read yet. -/
  inside : Pipe → Bytes
  writes : Pace
  reads : Pace
  /-- How the workers have left, the first one first. -/
  left : List (Pid × Ending)

namespace Traffic

/-- With these bytes in a pipe, whatever was in it. -/
def holding (t : Traffic) (pipe : Pipe) (bytes : Bytes) : Traffic :=
  { t with inside := Function.update t.inside pipe bytes }

/-- A new pipe is empty. -/
def opened (t : Traffic) : Except Errno Pipe → Traffic
  | .ok pipe => t.holding pipe []
  | .error _ => t

/-- Writes to a pipe as much as the call takes. -/
def write (t : Traffic) (pipe : Pipe) (bytes : Bytes) : Except Errno Nat × Traffic :=
  match t.writes.next bytes.length with
  | (none, pace) => (.error .eintr, { t with writes := pace })
  | (some n, pace) =>
    (.ok n, { t.holding pipe (t.inside pipe ++ bytes.take n) with writes := pace })

/-- Reads from a pipe as much as the call takes. -/
def read (t : Traffic) (pipe : Pipe) (n : Nat) : Except Errno Bytes × Traffic :=
  match t.reads.next n with
  | (none, pace) => (.error .eintr, { t with reads := pace })
  | (some m, pace) =>
    (.ok ((t.inside pipe).take m),
      { t.holding pipe ((t.inside pipe).drop m) with reads := pace })

/-- How many calls are still to be interrupted. -/
def interruptions (t : Traffic) : Nat := t.writes.count none + t.reads.count none

@[simp] theorem inside_holding (t : Traffic) (pipe : Pipe) (bytes : Bytes) :
    (t.holding pipe bytes).inside pipe = bytes :=
  Function.update_self ..

@[simp] theorem holding_inside (t : Traffic) (pipe : Pipe) :
    t.holding pipe (t.inside pipe) = t := by
  simp [holding]

variable (t : Traffic) (pipe : Pipe)

/-- All that a call to write can do. -/
theorem write_cases (bytes : Bytes) :
    (∃ pace, pace.count none < t.writes.count none ∧
      t.write pipe bytes = (.error .eintr, { t with writes := pace })) ∨
    ∃ n pace, n ≤ bytes.length ∧ (bytes ≠ [] → 0 < n) ∧
      t.write pipe bytes =
        (.ok n, { t.holding pipe (t.inside pipe ++ bytes.take n) with writes := pace }) := by
  rcases t.writes.next_cases bytes.length with ⟨pace, hnext, hcount⟩ | ⟨n, pace, hnext, hle, hpos⟩
  · exact Or.inl ⟨pace, hcount, by simp only [write, hnext]⟩
  · refine Or.inr ⟨n, pace, hle, fun h => hpos (List.length_pos_iff.mpr h), ?_⟩
    simp only [write, hnext]

/-- All that a call to read can do. -/
theorem read_cases (n : Nat) :
    (∃ pace, pace.count none < t.reads.count none ∧
      t.read pipe n = (.error .eintr, { t with reads := pace })) ∨
    ∃ m pace, m ≤ n ∧ (0 < n → 0 < m) ∧
      t.read pipe n = (.ok ((t.inside pipe).take m),
        { t.holding pipe ((t.inside pipe).drop m) with reads := pace }) := by
  rcases t.reads.next_cases n with ⟨pace, hnext, hcount⟩ | ⟨m, pace, hnext, hle, hpos⟩
  · exact Or.inl ⟨pace, hcount, by simp only [read, hnext]⟩
  · exact Or.inr ⟨m, pace, hle, hpos, by simp only [read, hnext]⟩

end Traffic

/-- An operation on the first of two states. -/
def aside {σ ω α : Type} (op : StateM σ α) : StateM (σ × ω) α := fun (s, w) =>
  let (a, s) := op s
  (a, s, w)

namespace Kernel

variable {ω : Type}

/-- The system with pipes that carry what is written to them. -/
def piped (k : Kernel ω) : Kernel (Traffic × ω) :=
  { k.alongside Traffic with
    openPipe := fun (t, w) =>
      let (answer, w) := k.openPipe w
      (answer, t.opened answer, w)
    write := fun pipe bytes => aside (·.write pipe bytes)
    read := fun pipe n => aside (·.read pipe n)
    leave := fun pid ending (t, w) =>
      let ((), w) := k.leave pid ending w
      ((), { t with left := t.left ++ [(pid, ending)] }, w)
    interruptions := fun s => s.1.interruptions + k.interruptions s.2
    length_read := fun pipe n s bytes h => by
      dsimp only [aside] at h
      rcases s.1.read_cases pipe n with ⟨pace, _, hread⟩ | ⟨m, pace, hle, _, hread⟩
      · rw [hread] at h
        cases h
      · rw [hread] at h
        cases h
        exact Nat.le_trans (List.length_take_le m _) hle
    interrupted_write := fun pipe bytes s h => by
      dsimp only [aside] at h ⊢
      rcases s.1.write_cases pipe bytes with ⟨pace, hcount, hwrite⟩ | ⟨n, pace, _, _, hwrite⟩
      · rw [hwrite]
        dsimp only [Traffic.interruptions]
        omega
      · rw [hwrite] at h
        cases h
    interrupted_read := fun pipe n s h => by
      dsimp only [aside] at h ⊢
      rcases s.1.read_cases pipe n with ⟨pace, hcount, hread⟩ | ⟨m, pace, _, _, hread⟩
      · rw [hread]
        dsimp only [Traffic.interruptions]
        omega
      · rw [hread] at h
        cases h
    interrupted_await := fun pid s h => Nat.add_lt_add_left (k.interrupted_await pid s.2 h) _
    monotone_openPipe := fun s => k.monotone_openPipe s.2
    monotone_write := fun pipe bytes s => Nat.le_refl _
    monotone_leave := fun pid ending s => k.monotone_leave pid ending s.2 }

/-- A new pipe is empty. -/
theorem inside_of_openPipe {k : Kernel ω} {s s₁ : Traffic × ω} {pipe : Pipe}
    (opened : k.piped.openPipe s = (.ok pipe, s₁)) :
    s₁.1.inside pipe = [] ∧ s₁.1.left = s.1.left := by
  change (_, s.1.opened (k.openPipe s.2).1, _) = _ at opened
  obtain ⟨hanswer, hs₁⟩ := Prod.mk.inj opened
  have htraffic : s₁.1 = s.1.holding pipe [] := by
    rw [← hs₁, hanswer]
    rfl
  rw [htraffic]
  exact ⟨Traffic.inside_holding .., rfl⟩

theorem traffic_of_fork {k : Kernel ω} {s₁ s₂ : Traffic × ω} {pid : Pid}
    (forked : k.piped.fork s₁ = (.ok pid, s₂)) : s₂.1 = s₁.1 :=
  (congrArg (·.2.1) forked).symm

section Pieces

variable (k : Kernel ω) (pipe : Pipe) (s : Traffic × ω)

theorem write_piped_cases {bytes : Bytes} (h : bytes ≠ []) :
    (∃ pace, k.piped.write pipe bytes s = (.error .eintr, { s.1 with writes := pace }, s.2)) ∨
    ∃ n pace, n ≤ bytes.length ∧ 0 < n ∧ k.piped.write pipe bytes s =
      (.ok n, { s.1.holding pipe (s.1.inside pipe ++ bytes.take n) with writes := pace }, s.2) := by
  have hpiped : k.piped.write pipe bytes s =
      ((s.1.write pipe bytes).1, (s.1.write pipe bytes).2, s.2) := rfl
  rw [hpiped]
  rcases s.1.write_cases pipe bytes with ⟨pace, _, hwrite⟩ | ⟨n, pace, hle, hpos, hwrite⟩
  · exact Or.inl ⟨pace, by rw [hwrite]⟩
  · exact Or.inr ⟨n, pace, hle, hpos h, by rw [hwrite]⟩

theorem read_piped_cases {n : Nat} (h : 0 < n) :
    (∃ pace, k.piped.read pipe n s = (.error .eintr, { s.1 with reads := pace }, s.2)) ∨
    ∃ m pace, m ≤ n ∧ 0 < m ∧ k.piped.read pipe n s =
      (.ok ((s.1.inside pipe).take m),
        { s.1.holding pipe ((s.1.inside pipe).drop m) with reads := pace }, s.2) := by
  have hpiped : k.piped.read pipe n s = ((s.1.read pipe n).1, (s.1.read pipe n).2, s.2) := rfl
  rw [hpiped]
  rcases s.1.read_cases pipe n with ⟨pace, _, hread⟩ | ⟨m, pace, hle, hpos, hread⟩
  · exact Or.inl ⟨pace, by rw [hread]⟩
  · exact Or.inr ⟨m, pace, hle, hpos h, by rw [hread]⟩

/-- However it is cut into pieces, what is sent is in the pipe afterwards, behind
what was there. -/
theorem send_piped (bytes : Bytes) :
    ∃ pace, k.piped.send pipe bytes s =
      ((), { s.1.holding pipe (s.1.inside pipe ++ bytes) with writes := pace }, s.2) := by
  fun_induction k.piped.send pipe bytes s with
  | case1 s => exact ⟨s.1.writes, by simp⟩
  | case2 s b rest s' hsent =>
    exfalso
    rcases k.write_piped_cases pipe s (List.cons_ne_nil b rest) with
      ⟨_, hwrite⟩ | ⟨n, _, _, hpos, hwrite⟩
    · cases hsent.symm.trans hwrite
    · cases hsent.symm.trans hwrite
      exact Nat.lt_irrefl 0 hpos
  | case3 s b rest n s' hsent ih =>
    rcases k.write_piped_cases pipe s (List.cons_ne_nil b rest) with
      ⟨_, hwrite⟩ | ⟨n', pace, _, _, hwrite⟩
    · cases hsent.symm.trans hwrite
    · cases hsent.symm.trans hwrite
      obtain ⟨pace', ih⟩ := ih
      have hall : s.1.inside pipe ++ (b :: rest).take (n + 1) ++ rest.drop n =
          s.1.inside pipe ++ b :: rest := by
        rw [List.append_assoc, List.take_succ_cons, List.cons_append, List.take_append_drop]
      refine ⟨pace', ih.trans ?_⟩
      rw [← hall]
      simp [Traffic.holding]
  | case4 s b rest s' hsent ih =>
    rcases k.write_piped_cases pipe s (List.cons_ne_nil b rest) with
      ⟨_, hwrite⟩ | ⟨n', pace, _, _, hwrite⟩
    · cases hsent.symm.trans hwrite
      exact ih
    · cases hsent.symm.trans hwrite
  | case5 s b rest e s' hsent he =>
    exfalso
    rcases k.write_piped_cases pipe s (List.cons_ne_nil b rest) with
      ⟨_, hwrite⟩ | ⟨n', pace, _, _, hwrite⟩
    · cases hsent.symm.trans hwrite
      exact he rfl
    · cases hsent.symm.trans hwrite

/-- A first piece and then what is left of the allowance come to the allowance. -/
private theorem take_append_take_drop {m n : Nat} (h : m ≤ n) {bytes : Bytes} :
    bytes.take m ++ (bytes.drop m).take (n - (bytes.take m).length) = bytes.take n := by
  rcases Nat.le_total bytes.length m with hshort | hlong
  · rw [List.drop_eq_nil_of_le hshort, List.take_nil, List.append_nil, List.take_of_length_le hshort,
      List.take_of_length_le (Nat.le_trans hshort h)]
  · rw [List.length_take, Nat.min_eq_left hlong, ← List.take_add, Nat.add_sub_cancel' h]

/-- However it is cut into pieces, what is read is the beginning of what is in
the pipe, up to the size of a report. -/
theorem fill_piped (got : Bytes) :
    (k.piped.fill pipe got s).1 =
      .ok (got ++ (s.1.inside pipe).take (Report.size - got.length)) := by
  fun_induction k.piped.fill pipe got s with
  | case1 got s hgot s' hread =>
    rcases k.read_piped_cases pipe s (Nat.sub_pos_of_lt hgot) with
      ⟨_, hread'⟩ | ⟨m, _, _, hpos, hread'⟩
    · cases hread.symm.trans hread'
    · obtain ⟨hnil, -⟩ := Prod.mk.inj (hread.symm.trans hread')
      -- an answer without bytes is the end of the pipe
      have hempty : s.1.inside pipe = [] := by
        rcases List.take_eq_nil_iff.mp (Except.ok.inj hnil).symm with hm | hempty
        · omega
        · exact hempty
      rw [hempty, List.take_nil, List.append_nil]
  | case2 got s hgot b chunk s' hread ih =>
    rcases k.read_piped_cases pipe s (Nat.sub_pos_of_lt hgot) with
      ⟨_, hread'⟩ | ⟨m, pace, hle, _, hread'⟩
    · cases hread.symm.trans hread'
    · obtain ⟨hchunk, hs'⟩ := Prod.mk.inj (hread.symm.trans hread')
      have hchunk := Except.ok.inj hchunk
      have hinside : s'.1.inside pipe = (s.1.inside pipe).drop m := by
        rw [hs']
        exact Traffic.inside_holding ..
      rw [ih, hinside, hchunk, List.append_assoc, List.length_append, ← Nat.sub_sub,
        take_append_take_drop hle]
  | case3 got s hgot s' hread ih =>
    rcases k.read_piped_cases pipe s (Nat.sub_pos_of_lt hgot) with
      ⟨_, hread'⟩ | ⟨m, pace, _, _, hread'⟩
    · cases hread.symm.trans hread'
      exact ih
    · cases hread.symm.trans hread'
  | case4 got s hgot e s' hread he =>
    exfalso
    rcases k.read_piped_cases pipe s (Nat.sub_pos_of_lt hgot) with
      ⟨_, hread'⟩ | ⟨m, pace, _, _, hread'⟩
    · cases hread.symm.trans hread'
      exact he rfl
    · cases hread.symm.trans hread'
  | case5 got s hfull =>
    rw [Nat.sub_eq_zero_of_le (Nat.le_of_not_lt hfull), List.take_zero, List.append_nil]

end Pieces
end Kernel
end BucketMount
