import BucketMount.Proofs.Journal
import BucketMount.Proofs.Process.Custody
import Mathlib.Data.List.Perm.Basic

/-!
# A process that has been reaped is left alone

Once an answer about a child has said that it has ended, its number may belong
to anyone. The law of this module is that the number is then not touched any
more, unless a later start of a process has answered it again.

What is assumed of the system is that a number is given out only when it is
free (`FreshNumbers`): not while a child of that number may still be there. An
answer other than that the child goes on, be it only an error, already frees
the number.

The invariant `InHand` goes with the processes that the program has in hand: no
answer has freed the number of any of them, so each is still the process that
was started, and no two of them are the same.
-/

namespace BucketMount

namespace Event

/-- The event is a signal to the process, or a question about it. -/
def Touches (pid : Pid) : Event → Prop
  | .waited p _ | .signalled p _ => p = pid
  | _ => False

end Event

namespace Journal

/-- After an answer that says that a child has ended, its number is not touched
before a start has answered it again. -/
def ReapedLeftAlone (j : Journal) : Prop :=
  ∀ before pid answer between e after,
    j = before ++ .waited pid answer :: (between ++ e :: after) → saysEnded answer →
      e.Touches pid → .forked pid ∈ between

/-- Two starts answer the same number only if some answer between them has not
left open that the child goes on. -/
def FreshNumbers (j : Journal) : Prop :=
  ∀ before pid between after,
    j = before ++ .forked pid :: (between ++ .forked pid :: after) →
      ∃ answer, .waited pid answer ∈ between ∧ ¬leavesOpen answer

/-- The last that is known of a number is that its child has ended. -/
def Reaped (j : Journal) (pid : Pid) : Prop :=
  ∃ before answer since, j = before ++ .waited pid answer :: since ∧ saysEnded answer ∧
    .forked pid ∉ since

/-- A child of that number was started, and may still be there. -/
def InUse (j : Journal) (pid : Pid) : Prop :=
  ∃ before since, j = before ++ .forked pid :: since ∧
    ∀ answer, .waited pid answer ∈ since → leavesOpen answer

variable {j : Journal} {e : Event} {pid : Pid}

/-! ## Looking for a number that was given out too early -/

/-- Whether the number is free again before a start answers it. -/
def freedFirst (pid : Pid) : Journal → Bool
  | [] => true
  | .waited p answer :: j => (p = pid && !leavesOpen answer) || freedFirst pid j
  | .forked p :: j => p ≠ pid && freedFirst pid j
  | _ :: j => freedFirst pid j

/-- Whether numbers are given out only when they are free. -/
def isFresh : Journal → Bool
  | [] => true
  | .forked pid :: j => freedFirst pid j && isFresh j
  | _ :: j => isFresh j

theorem forall_split_cons {P : Journal → Journal → Prop} {x : Event} :
    (∀ before after, e :: j = before ++ x :: after → P before after) ↔
      (e = x → P [] j) ∧ ∀ before after, j = before ++ x :: after → P (e :: before) after := by
  constructor
  · intro h
    refine ⟨fun he => h [] j (by rw [he]; rfl), fun before after hj => ?_⟩
    exact h (e :: before) after (by rw [hj]; rfl)
  · rintro ⟨hhead, htail⟩ before after hj
    cases before with
    | nil =>
      obtain ⟨rfl, rfl⟩ := List.cons.inj hj
      exact hhead rfl
    | cons y before =>
      obtain ⟨rfl, rfl⟩ := List.cons.inj hj
      exact htail before after rfl

theorem freedFirst_iff : freedFirst pid j ↔ ∀ between after, j = between ++ .forked pid :: after →
    ∃ answer, .waited pid answer ∈ between ∧ ¬leavesOpen answer := by
  induction j with
  | nil => simp [freedFirst]
  | cons e j ih =>
    rw [forall_split_cons]
    cases e with
    | waited p answer =>
      by_cases hp : p = pid
      · subst hp
        cases hopen : leavesOpen answer <;> simp [freedFirst, ih, hopen]
      · simp [freedFirst, ih, hp, Ne.symm hp]
    | forked p =>
      by_cases hp : p = pid <;> simp [freedFirst, ih, hp]
    | _ => simp [freedFirst, ih]

theorem isFresh_iff : isFresh j ↔ FreshNumbers j := by
  -- a start first and then the starts after it, as `isFresh` goes through the journal
  have hsplit : FreshNumbers j ↔
      ∀ pid before rest, j = before ++ .forked pid :: rest → freedFirst pid rest := by
    simp only [freedFirst_iff]
    constructor
    · rintro h pid before _ hj between after rfl
      exact h before pid between after hj
    · intro h before pid between after hj
      exact h pid before _ hj between after rfl
  rw [hsplit]
  clear hsplit
  induction j with
  | nil => simp [isFresh]
  | cons e j ih =>
    simp only [forall_split_cons, forall_and, ← ih]
    cases e <;> simp [isFresh]

instance : Decidable (FreshNumbers j) := decidable_of_iff _ isFresh_iff

/-! ## One event more -/

/-- Where an event of a longer journal stands. -/
theorem split_snoc {before after : Journal} {x : Event} (h : j ++ [e] = before ++ x :: after) :
    (after = [] ∧ x = e ∧ j = before) ∨ ∃ rest, after = rest ++ [e] ∧ j = before ++ x :: rest := by
  rcases List.eq_nil_or_concat after with rfl | ⟨rest, last, rfl⟩
  · obtain ⟨rfl, hx⟩ := List.append_inj' h rfl
    exact Or.inl ⟨rfl, (List.singleton_inj.mp hx).symm, rfl⟩
  · rw [List.concat_eq_append] at h ⊢
    rw [← List.cons_append, ← List.append_assoc] at h
    obtain ⟨rfl, hlast⟩ := List.append_inj' h rfl
    exact Or.inr ⟨rest, by rw [List.singleton_inj.mp hlast], rfl⟩

theorem ReapedLeftAlone.snoc (h : ReapedLeftAlone j) (hnew : ∀ pid, e.Touches pid → ¬Reaped j pid) :
    ReapedLeftAlone (j ++ [e]) := by
  intro before pid answer between x after hsplit hended htouches
  rw [← List.cons_append, ← List.append_assoc] at hsplit
  rcases split_snoc hsplit with ⟨_, rfl, hj⟩ | ⟨rest, _, hj⟩
  · by_contra hforked
    exact hnew pid htouches ⟨before, answer, between, hj, hended, hforked⟩
  · rw [List.append_assoc, List.cons_append] at hj
    exact h before pid answer between x rest hj hended htouches

theorem FreshNumbers.of_snoc (h : FreshNumbers (j ++ [e])) : FreshNumbers j := by
  intro before pid between after hj
  refine h before pid between (after ++ [e]) ?_
  rw [hj]
  simp

theorem FreshNumbers.not_inUse (h : FreshNumbers (j ++ [.forked pid])) : ¬InUse j pid := by
  rintro ⟨before, since, rfl, hopen⟩
  obtain ⟨answer, hmem, hsettled⟩ := h before pid since [] (by simp)
  exact hsettled (hopen answer hmem)

theorem Reaped.of_snoc (h : Reaped (j ++ [e]) pid) :
    (∃ answer, e = .waited pid answer ∧ saysEnded answer) ∨ Reaped j pid := by
  obtain ⟨before, answer, since, hsplit, hended, hforked⟩ := h
  rcases split_snoc hsplit with ⟨_, rfl, _⟩ | ⟨rest, rfl, hj⟩
  · exact Or.inl ⟨answer, rfl, hended⟩
  · exact Or.inr ⟨before, answer, rest, hj, hended, fun hmem => hforked (by simp [hmem])⟩

theorem InUse.snoc (h : InUse j pid)
    (hopen : ∀ answer, e = .waited pid answer → leavesOpen answer) :
    InUse (j ++ [e]) pid := by
  obtain ⟨before, since, rfl, hsince⟩ := h
  refine ⟨before, since ++ [e], by simp, fun answer hmem => ?_⟩
  rcases List.mem_append.mp hmem with hmem | hmem
  · exact hsince answer hmem
  · exact hopen answer (List.mem_singleton.mp hmem).symm

theorem inUse_forked (j : Journal) (pid : Pid) : InUse (j ++ [.forked pid]) pid :=
  ⟨j, [], rfl, by simp⟩

theorem not_leavesOpen_of_saysEnded {answer : Except Errno WaitStatus} (h : saysEnded answer) :
    ¬leavesOpen answer := by
  cases answer with
  | ok status => simpa [saysEnded, leavesOpen] using h
  | error e => cases h

/-- A child that may still be there has not been reaped. -/
theorem InUse.not_reaped (h : InUse j pid) : ¬Reaped j pid := by
  rintro ⟨before', answer, since', hj, hended, hforked⟩
  obtain ⟨before, since, rfl, hopen⟩ := h
  rcases List.append_eq_append_iff.mp hj with ⟨gap, rfl, hgap⟩ | ⟨gap, rfl, hgap⟩
  · -- the start comes first, and the answer stands among what came since
    cases gap with
    | nil => cases hgap
    | cons x gap =>
      obtain ⟨rfl, rfl⟩ := List.cons.inj hgap
      exact not_leavesOpen_of_saysEnded hended (hopen answer (by simp))
  · -- the answer comes first, and the start stands among what came since
    cases gap with
    | nil => cases hgap
    | cons x gap =>
      obtain ⟨rfl, rfl⟩ := List.cons.inj hgap
      exact hforked (by simp)

/-! ## The processes in hand -/

/-- The law has been kept, and the processes in hand are different children
that may still be there. -/
structure InHand (j : Journal) (held : List Pid) : Prop where
  law : ReapedLeftAlone j
  inUse : ∀ pid ∈ held, InUse j pid
  nodup : held.Nodup

variable {held held' : List Pid}

theorem inHand_nil : InHand [] [] := by
  refine ⟨?_, nofun, List.nodup_nil⟩
  intro before pid answer between x after hsplit
  cases before <;> cases hsplit

theorem InHand.forget (h : InHand j held) (hsub : held'.Subperm held) : InHand j held' := by
  refine ⟨h.law, fun pid hpid => h.inUse pid (hsub.subset hpid), ?_⟩
  obtain ⟨kept, hperm, hsublist⟩ := hsub
  exact hperm.nodup_iff.mp (hsublist.nodup h.nodup)

/-- An event that touches nothing but unreaped processes, and takes none of
those in hand away. -/
theorem InHand.snoc (h : InHand j held) (htouches : ∀ pid, e.Touches pid → ¬Reaped j pid)
    (hopen : ∀ pid ∈ held, ∀ answer, e = .waited pid answer → leavesOpen answer) :
    InHand (j ++ [e]) held :=
  ⟨h.law.snoc htouches, fun pid hpid => (h.inUse pid hpid).snoc (hopen pid hpid), h.nodup⟩

/-- An event that touches nothing. -/
theorem InHand.snoc_other (h : InHand j held) (htouches : ∀ pid, ¬e.Touches pid) :
    InHand (j ++ [e]) held := by
  refine h.snoc (fun pid ht => absurd ht (htouches pid)) ?_
  rintro pid _ answer rfl
  exact absurd rfl (htouches pid)

theorem InHand.forked (h : InHand j held) (hfresh : ¬InUse j pid) :
    InHand (j ++ [.forked pid]) (pid :: held) := by
  have hj : InHand (j ++ [.forked pid]) held := h.snoc_other fun _ ht => ht
  refine ⟨hj.law, ?_, List.nodup_cons.mpr ⟨fun hmem => hfresh (h.inUse pid hmem), h.nodup⟩⟩
  intro q hq
  rcases List.mem_cons.mp hq with rfl | hq
  · exact inUse_forked j q
  · exact hj.inUse q hq

/-- A process that is touched, beside those in hand. -/
theorem InHand.touched (h : InHand j held) (htouches : ∀ q, e.Touches q → pid = q)
    (hpid : ¬Reaped j pid) (hnew : pid ∉ held) : InHand (j ++ [e]) held := by
  refine h.snoc ?_ ?_
  · intro q hq
    rwa [← htouches q hq]
  · rintro q hq answer rfl
    exact absurd (htouches q rfl ▸ hq) hnew

theorem InHand.signalled (h : InHand j (pid :: held)) (signal : Option Signal) :
    InHand (j ++ [.signalled pid signal]) (pid :: held) := by
  refine h.snoc ?_ nofun
  rintro q rfl
  exact (h.inUse _ List.mem_cons_self).not_reaped

theorem InHand.waited (h : InHand j (pid :: held)) (answer : Except Errno WaitStatus) :
    InHand (j ++ [.waited pid answer]) (if leavesOpen answer then pid :: held else held) := by
  have hpid := (h.inUse pid List.mem_cons_self).not_reaped
  obtain ⟨hnew, _⟩ := List.nodup_cons.mp h.nodup
  split
  · rename_i hopen
    refine h.snoc ?_ ?_
    · rintro q rfl
      exact hpid
    · rintro q _ answer' heq
      cases heq
      exact hopen
  · exact (h.forget (List.sublist_cons_self pid held).subperm).touched (fun _ hq => hq) hpid hnew

theorem InHand.started {ε : Type} (h : FreshNumbers j → InHand j held) (answer : Except ε Pid)
    (hfresh : FreshNumbers (j ++ Event.ofStart answer)) :
    InHand (j ++ Event.ofStart answer) ((answer.toOption).toList ++ held) := by
  cases answer with
  | ok pid => exact (h hfresh.of_snoc).forked hfresh.not_inUse
  | error e =>
    have hj : j ++ Event.ofStart (.error e) = j := List.append_nil j
    rw [hj] at hfresh ⊢
    exact h hfresh

/-! ## The system with a journal -/

/-- As long as numbers are given out only when they are free, the processes
are in hand. -/
def Holds {ω : Type} (held : List Pid) (s : Journal × ω) : Prop :=
  FreshNumbers s.1 → InHand s.1 held

section System

variable {ω : Type}

theorem ensures_noting_holds {α : Type} {events : α → Journal} {after : α → List Pid}
    {op : StateM ω α}
    (h : ∀ j a, (FreshNumbers j → InHand j held) → FreshNumbers (j ++ events a) →
      InHand (j ++ events a) (after a)) :
    Ensures (Holds held) (noting events op) fun a => Holds (after a) :=
  fun s hs => h s.1 (op s.2).1 hs

theorem keeps_noting_other {α : Type} {event : α → Event} {op : StateM ω α}
    (h : ∀ a pid, ¬(event a).Touches pid) :
    Keeps (Holds held) (noting (fun a => [event a]) op) :=
  ensures_noting_holds fun _ a hj hfresh => (hj hfresh.of_snoc).snoc_other (h a)

theorem ensures_noting_start {ε : Type} (op : StateM ω (Except ε Pid)) :
    Ensures (Holds held) (noting Event.ofStart op) fun answer =>
      Holds (answer.toOption.toList ++ held) :=
  ensures_noting_holds fun _ answer hj hfresh => InHand.started hj answer hfresh

theorem ensures_noting_wait {op : StateM ω (Except Errno WaitStatus)} :
    Ensures (Holds (pid :: held)) (noting (fun answer => [.waited pid answer]) op) fun answer =>
      if leavesOpen answer then Holds (pid :: held) else Holds held :=
  .of_ite <| ensures_noting_holds fun _ answer hj hfresh =>
    (hj (FreshNumbers.of_snoc hfresh)).waited answer

variable (k : Kernel ω)

/-- What is known of a process that is no longer in hand and not reaped yet. -/
def Pending (held : List Pid) (pid : Pid) (s : Journal × ω) : Prop :=
  FreshNumbers s.1 → InHand s.1 held ∧ ¬Reaped s.1 pid ∧ pid ∉ held

theorem pending_of_holds {s : Journal × ω} (hs : Holds (pid :: held) s) : Pending held pid s := by
  intro hfresh
  have hj := hs hfresh
  exact ⟨hj.forget (List.sublist_cons_self pid held).subperm,
    (hj.inUse pid List.mem_cons_self).not_reaped, (List.nodup_cons.mp hj.nodup).1⟩

/-- A process that is pending can be touched. -/
theorem Pending.touched {s : Journal × ω} (hs : Pending held pid s)
    (htouches : ∀ q, e.Touches q → pid = q) (w : ω) : Holds held (s.1 ++ [e], w) := by
  intro hfresh
  obtain ⟨hj, hpid, hnew⟩ := hs hfresh.of_snoc
  exact hj.touched htouches hpid hnew

/-- A process that is touched stays pending unless the answer says that it has
ended. -/
theorem Pending.snoc {s : Journal × ω} (hs : Pending held pid s)
    (htouches : ∀ q, e.Touches q → pid = q)
    (hgoes : ∀ answer, e = .waited pid answer → ¬saysEnded answer) (w : ω) :
    Pending held pid (s.1 ++ [e], w) := by
  intro hfresh
  obtain ⟨_, hpid, hnew⟩ := hs hfresh.of_snoc
  refine ⟨hs.touched htouches w hfresh, fun hreaped => ?_, hnew⟩
  rcases hreaped.of_snoc with ⟨answer, heq, hended⟩ | hreaped
  · exact hgoes answer heq hended
  · exact hpid hreaped

theorem handling_journaled (held : List Pid) (pid : Pid) :
    k.journaled.Handling pid (Pending held pid) (Holds held) where
  sleep _ _ hs := hs
  kill signal s hs := hs.snoc (e := .signalled pid signal) (fun _ hq => hq) nofun _
  poll s hs := by
    have htouches : ∀ q, (Event.waited pid (k.poll pid s.2).1).Touches q → pid = q := fun _ hq => hq
    change (if saysEnded (k.poll pid s.2).1 then Holds held else Pending held pid) _
    split
    · exact hs.touched htouches _
    · rename_i hgoes
      refine hs.snoc htouches ?_ _
      intro answer heq
      cases heq
      exact hgoes
  letGo _ hs hfresh := (hs hfresh).1

theorem custody_journaled : k.journaled.Custody Holds where
  quiet held := k.quiet_journaled fun j => FreshNumbers j → InHand j held
  exec _ _ _ _ := keeps_noting_other fun _ _ ht => ht
  arrived _ := keeps_noting_other fun _ _ ht => ht
  fork _ :=
    .imp (fun _ hs => hs) (ensures_noting_start k.fork) fun
      | .ok _, _, hs => hs
      | .error _, _, hs => hs
  startReader _ words pipe :=
    .imp (fun _ hs => hs) (ensures_noting_start (k.startReader words pipe)) fun
      | .ok _, _, hs => hs
      | .error _, _, hs => hs
  kill _ _ signal := fun _ hs hfresh => (hs hfresh.of_snoc).signalled signal
  await _ _ := ensures_noting_wait
  poll _ _ := ensures_noting_wait
  handling held pid := ⟨_, fun _ => pending_of_holds, handling_journaled k held pid⟩
  forget hsub h hfresh := (h hfresh).forget hsub

end System
end Journal
end BucketMount
