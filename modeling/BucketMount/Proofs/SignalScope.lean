import BucketMount.SignalTable
import Mathlib.Data.List.Basic
import Mathlib.Data.List.Induction

/-!
# Handlers within handlers

Handlers are given up in the reverse order of their installation, and the signal
that is waiting to be taken is kept in one place for all of them. Two invariants
say what this comes to. `Stacked` ties what each handler remembers to what was in
force when it was installed, and `Heard` says in terms of the calls alone which
signal is waiting. From them `signal_scope_laws` tells for every sequence of calls
when a signal is caught, what giving a handler up brings back, and what asking
for a signal answers.
-/

namespace BucketMount

/-- The calls that need a handler. -/
def SignalCall.NeedsHandler (c : SignalCall) : Prop := c = .drop ∨ c = .take

/-- How many handlers have been installed and not been given up. -/
def openHandlers (calls : List SignalCall) : Nat := calls.count .install - calls.count .drop

/-- No handler is given up or asked that is not there. -/
def Nested (calls : List SignalCall) : Prop :=
  ∀ early c late, calls = early ++ c :: late → c.NeedsHandler → 0 < openHandlers early

/-- Calls that give up exactly the handlers that they install. -/
inductive Balanced : List SignalCall → Prop where
  | nil : Balanced []
  | take {rest : List SignalCall} (h : Balanced rest) : Balanced (.take :: rest)
  | raise (s : TerminationSignal) {rest : List SignalCall} (h : Balanced rest) :
      Balanced (.raise s :: rest)
  | handler {inside rest : List SignalCall} (hinside : Balanced inside) (h : Balanced rest) :
      Balanced (.install :: (inside ++ .drop :: rest))

/-- The signal arrived while there was a handler, and it is the last one that did
since a handler was installed or a signal was taken: all that came later is that
handlers were given up. -/
def Heard (calls : List SignalCall) (s : TerminationSignal) : Prop :=
  ∃ early late, calls = early ++ .raise s :: late ∧ 0 < openHandlers early ∧ ∀ c ∈ late, c = .drop

theorem Balanced.append {calls later : List SignalCall} (h : Balanced calls)
    (hlater : Balanced later) : Balanced (calls ++ later) := by
  induction h with
  | nil => exact hlater
  | take h ih => exact .take ih
  | raise s h ih => exact .raise s ih
  | handler hinside h ihinside ih =>
    rw [List.cons_append, List.append_assoc, List.cons_append]
    exact .handler hinside ih

theorem nested_nil : Nested [] := by
  intro early c late h
  simp at h

theorem nested_snoc_iff {calls : List SignalCall} {c : SignalCall} :
    Nested (calls ++ [c]) ↔ Nested calls ∧ (c.NeedsHandler → 0 < openHandlers calls) := by
  constructor
  · intro h
    refine ⟨fun early d late heq hd => ?_, fun hc => h calls c [] rfl hc⟩
    exact h early d (late ++ [c]) (by rw [heq, List.append_assoc]; rfl) hd
  · rintro ⟨hcalls, hc⟩ early d late heq hd
    rcases List.eq_nil_or_concat late with rfl | ⟨late, e, rfl⟩
    · obtain ⟨rfl, hdc⟩ := List.append_inj' heq rfl
      cases hdc
      exact hc hd
    · rw [List.concat_eq_append, ← List.cons_append, ← List.append_assoc] at heq
      obtain ⟨hcalls', -⟩ := List.append_inj' heq rfl
      exact hcalls early d late hcalls' hd

section Heard

variable {calls : List SignalCall} {c : SignalCall} {s s' : TerminationSignal}

/-- What comes last decides: a signal is heard, a handler that is given up changes
nothing, and after anything else there is no signal any more. -/
theorem heard_snoc_iff :
    Heard (calls ++ [c]) s ↔
      c = .raise s ∧ 0 < openHandlers calls ∨ c = .drop ∧ Heard calls s := by
  constructor
  · rintro ⟨early, late, heq, hopen, hlate⟩
    rcases List.eq_nil_or_concat late with rfl | ⟨late, e, rfl⟩
    · obtain ⟨rfl, hc⟩ := List.append_inj' heq rfl
      cases hc
      exact .inl ⟨rfl, hopen⟩
    · rw [List.concat_eq_append, ← List.cons_append, ← List.append_assoc] at heq
      obtain ⟨hcalls, hc⟩ := List.append_inj' heq rfl
      cases hc
      simp only [List.concat_eq_append, List.mem_append, List.mem_singleton] at hlate
      exact .inr ⟨hlate c (.inr rfl), early, late, hcalls, hopen,
        fun d hd => hlate d (.inl hd)⟩
  · rintro (⟨rfl, hopen⟩ | ⟨rfl, early, late, rfl, hopen, hlate⟩)
    · exact ⟨calls, [], rfl, hopen, by simp⟩
    · refine ⟨early, late ++ [.drop], by rw [List.append_assoc]; rfl, hopen, ?_⟩
      simpa [or_imp, forall_and] using hlate

end Heard

namespace SignalScope

/-- All that a call can do. -/
inductive Performs (p : SignalScope) : SignalCall → Option TerminationSignal → SignalScope → Prop where
  | install :
      p.Performs .install none ⟨⟨p.table.dispositions⟩ :: p.handlers, ⟨fun _ => .caught, none⟩⟩
  | drop {handler : SignalHandler} {older : List SignalHandler}
      (there : p.handlers = handler :: older) :
      p.Performs .drop none ⟨older, ⟨handler.previous, p.table.pending⟩⟩
  | take (there : p.handlers ≠ []) :
      p.Performs .take p.table.pending ⟨p.handlers, ⟨p.table.dispositions, none⟩⟩
  | raise {s : TerminationSignal} (survives : (p.table.dispositions s).outlives s) :
      p.Performs (.raise s) none ⟨p.handlers, p.table.raise s⟩

/-- Each handler remembers what was in force when it was installed, and while there
is one everything is caught. -/
inductive Stacked (initial : TerminationSignal → Disposition) :
    List SignalHandler → (TerminationSignal → Disposition) → Prop where
  | bottom : Stacked initial [] initial
  | handler {older : List SignalHandler} {previous : TerminationSignal → Disposition}
      (h : Stacked initial older previous) : Stacked initial (⟨previous⟩ :: older) fun _ => .caught

/-- What holds of a process after these calls. -/
structure Reached (initial : TerminationSignal → Disposition) (calls : List SignalCall)
    (p : SignalScope) : Prop where
  nested : Nested calls
  count_eq : calls.count .install = p.handlers.length + calls.count .drop
  stacked : Stacked initial p.handlers p.table.dispositions
  pending_iff : p.handlers ≠ [] → ∀ s, p.table.pending = some s ↔ Heard calls s

section Stacked

variable {initial dispositions : TerminationSignal → Disposition} {handlers : List SignalHandler}
  {s : TerminationSignal}

theorem Stacked.caught (h : Stacked initial handlers dispositions) (there : handlers ≠ [])
    (s : TerminationSignal) : dispositions s = .caught := by
  cases h with
  | bottom => exact absurd rfl there
  | handler h => rfl

theorem Stacked.previous {handler : SignalHandler} {older : List SignalHandler}
    (h : Stacked initial (handler :: older) dispositions) :
    Stacked initial older handler.previous := by
  cases h with
  | handler h => exact h

theorem Stacked.eq_initial (h : Stacked initial [] dispositions) : dispositions = initial := by
  cases h
  rfl

/-- While there is a handler no signal ends the process, and without one it is up
to what was in force at first. -/
theorem Stacked.outlives (h : Stacked initial handlers dispositions)
    (survives : (initial s).outlives s) : (dispositions s).outlives s := by
  cases h with
  | bottom => exact survives
  | handler h => rfl

end Stacked

/-! ## One call -/

section Perform

variable {initial : TerminationSignal → Disposition} {calls : List SignalCall} {c : SignalCall}
  {answer : Option TerminationSignal} {p q : SignalScope}

theorem Performs.perform_eq (h : p.Performs c answer q) : p.perform c = some (answer, q) := by
  cases h with
  | install => rfl
  | drop there =>
    simp only [perform, there]
    rfl
  | take there =>
    obtain ⟨handler, older, hp⟩ := List.exists_cons_of_ne_nil there
    simp only [perform, hp]
    rfl
  | raise survives => exact if_pos survives

theorem performs_of_perform (h : p.perform c = some (answer, q)) : p.Performs c answer q := by
  cases c with
  | install =>
    cases h
    exact .install
  | drop =>
    rw [perform] at h
    split at h
    · cases h
    · next handler older there =>
      cases h
      exact .drop there
  | take =>
    rw [perform] at h
    split at h
    · cases h
    · next handler older there =>
      cases h
      exact .take (by simp [there])
  | raise s =>
    rw [perform] at h
    split at h
    · next survives =>
      cases h
      exact .raise survives
    · cases h

theorem Reached.openHandlers_eq (h : p.Reached initial calls) :
    openHandlers calls = p.handlers.length := by
  rw [openHandlers, h.count_eq, Nat.add_sub_cancel]

theorem Reached.openHandlers_pos_iff (h : p.Reached initial calls) :
    0 < openHandlers calls ↔ p.handlers ≠ [] := by
  rw [h.openHandlers_eq, List.length_pos_iff]

theorem Performs.there (h : p.Performs c answer q) (needs : c.NeedsHandler) :
    p.handlers ≠ [] := by
  cases h with
  | install | raise => simp [SignalCall.NeedsHandler] at needs
  | drop there => simp [there]
  | take there => exact there

/-- A call is possible if there is a handler for it, and a signal can always arrive. -/
theorem Reached.exists_performs_iff (h : p.Reached initial calls)
    (survives : ∀ s, (initial s).outlives s) :
    (∃ answer q, p.Performs c answer q) ↔ (c.NeedsHandler → 0 < openHandlers calls) := by
  rw [h.openHandlers_pos_iff]
  constructor
  · rintro ⟨answer, q, hq⟩
    exact hq.there
  · intro hneeds
    cases c with
    | install => exact ⟨_, _, .install⟩
    | drop =>
      obtain ⟨handler, older, there⟩ := List.exists_cons_of_ne_nil (hneeds (.inl rfl))
      exact ⟨_, _, .drop there⟩
    | take => exact ⟨_, _, .take (hneeds (.inr rfl))⟩
    | raise s => exact ⟨_, _, .raise (h.stacked.outlives (survives s))⟩

theorem dispositions_raise (t : SignalTable) (s : TerminationSignal) :
    (t.raise s).dispositions = t.dispositions := by
  rw [SignalTable.raise]
  split <;> rfl

theorem pending_raise {t : SignalTable} {s : TerminationSignal}
    (caught : t.dispositions s = .caught) : (t.raise s).pending = some s := by
  rw [SignalTable.raise, if_pos caught]

/-- One call more keeps to both invariants. -/
theorem Reached.snoc (h : p.Reached initial calls) (hq : p.Performs c answer q) :
    q.Reached initial (calls ++ [c]) := by
  have hcount := h.count_eq
  have hnested : Nested (calls ++ [c]) :=
    nested_snoc_iff.mpr ⟨h.nested, fun needs => h.openHandlers_pos_iff.mpr (hq.there needs)⟩
  cases hq with
  | install =>
    refine ⟨hnested, ?_, .handler h.stacked, fun _ s => ?_⟩
    · simp
      omega
    · simp [heard_snoc_iff]
  | drop there =>
    have hstacked := h.stacked
    rw [there] at hstacked
    refine ⟨hnested, ?_, hstacked.previous, fun _ s => ?_⟩
    · simp [there] at hcount ⊢
      omega
    · rw [heard_snoc_iff]
      simpa using h.pending_iff (by simp [there]) s
  | take there =>
    refine ⟨hnested, by simpa using hcount, h.stacked, fun _ s => ?_⟩
    simp [heard_snoc_iff]
  | @raise arrived survives =>
    refine ⟨hnested, by simpa using hcount, ?_, fun there s => ?_⟩
    · rw [dispositions_raise]
      exact h.stacked
    · rw [pending_raise (h.stacked.caught there arrived), heard_snoc_iff,
        h.openHandlers_pos_iff]
      simp [there]

end Perform

/-! ## All calls -/

section Run

variable {initial : SignalTable} {calls later : List SignalCall} {c : SignalCall}
  {p q : SignalScope}

theorem run_snoc_iff :
    run (calls ++ [c]) p = some q ↔
      ∃ p', run calls p = some p' ∧ ∃ answer, p'.Performs c answer q := by
  have hone (p' : SignalScope) :
      run [c] p' = some q ↔ ∃ answer, p'.Performs c answer q := by
    simp only [run, List.foldlM_cons, List.foldlM_nil, bind_pure, Option.map_eq_some_iff,
      Prod.exists, exists_eq_right]
    exact exists_congr fun answer => ⟨performs_of_perform, Performs.perform_eq⟩
  have happend : run (calls ++ [c]) p = (run calls p).bind (run [c]) := List.foldlM_append
  simp only [happend, Option.bind_eq_some_iff, hone]

theorem reached_nil : Reached initial.dispositions [] ⟨[], initial⟩ where
  nested := nested_nil
  count_eq := rfl
  stacked := .bottom
  pending_iff there := absurd rfl there

/-- The invariants hold after all calls. -/
theorem reached_run (h : run calls ⟨[], initial⟩ = some p) :
    p.Reached initial.dispositions calls := by
  induction calls using List.reverseRecOn generalizing p with
  | nil =>
    cases h
    exact reached_nil
  | append_singleton calls c ih =>
    obtain ⟨p', hp', answer, hp⟩ := run_snoc_iff.mp h
    exact (ih hp').snoc hp

/-- The calls are possible if there is a handler wherever one is needed. -/
theorem exists_run_iff (survives : ∀ s, (initial.dispositions s).outlives s) :
    (∃ p, run calls ⟨[], initial⟩ = some p) ↔ Nested calls := by
  induction calls using List.reverseRecOn with
  | nil => exact iff_of_true ⟨_, rfl⟩ nested_nil
  | append_singleton calls c ih =>
    rw [nested_snoc_iff, ← ih]
    constructor
    · rintro ⟨q, hq⟩
      obtain ⟨p, hp, answer, hcall⟩ := run_snoc_iff.mp hq
      exact ⟨⟨p, hp⟩, ((reached_run hp).exists_performs_iff survives).mp ⟨answer, q, hcall⟩⟩
    · rintro ⟨⟨p, hp⟩, hneeds⟩
      obtain ⟨answer, q, hcall⟩ := ((reached_run hp).exists_performs_iff survives).mpr hneeds
      exact ⟨q, run_snoc_iff.mpr ⟨p, hp, answer, hcall⟩⟩

/-- The newest handler was installed before calls that have given up all handlers of
their own, and it remembers what was in force then. -/
theorem exists_install {handler : SignalHandler} {older : List SignalHandler}
    (h : run calls ⟨[], initial⟩ = some p) (there : p.handlers = handler :: older) :
    ∃ before inside q, calls = before ++ .install :: inside ∧ Balanced inside ∧
      run before ⟨[], initial⟩ = some q ∧ q.handlers = older ∧
      q.table.dispositions = handler.previous := by
  -- a handler that was given up in between takes the search back to its own installation
  induction hn : calls.length using Nat.strongRecOn generalizing calls p handler older with
  | _ n ih =>
    rcases List.eq_nil_or_concat calls with rfl | ⟨calls, c, rfl⟩
    · cases h
      cases there
    rw [List.concat_eq_append] at h hn ⊢
    obtain ⟨p', hp', answer, hcall⟩ := run_snoc_iff.mp h
    have hlt : calls.length < n := by
      rw [← hn]
      simp
    -- a call that leaves the handlers alone
    have hskip (hsame : p'.handlers = handler :: older) (hc : Balanced [c]) :
        ∃ before inside q, calls ++ [c] = before ++ .install :: inside ∧ Balanced inside ∧
          run before ⟨[], initial⟩ = some q ∧ q.handlers = older ∧
          q.table.dispositions = handler.previous := by
      obtain ⟨before, inside, q, rfl, hinside, hq⟩ := ih _ hlt hp' hsame rfl
      exact ⟨before, inside ++ [c], q, by simp, hinside.append hc, hq⟩
    cases hcall with
    | install =>
      cases there
      exact ⟨calls, [], p', rfl, .nil, hp', rfl, rfl⟩
    | take => exact hskip there (.take .nil)
    | raise => exact hskip there (.raise _ .nil)
    | drop there' =>
      obtain ⟨before', inside', q', rfl, hinside', hq', hold', -⟩ := ih _ hlt hp' there' rfl
      obtain ⟨before, inside, q, rfl, hinside, hq⟩ :=
        ih _ (by simp at hlt; omega) hq' (hold'.trans there) rfl
      refine ⟨before, inside ++ .install :: (inside' ++ [.drop]), q, by simp, ?_, hq⟩
      exact hinside.append (.handler hinside' .nil)

end Run

/-- What the calls so far say about a process that had no handler before them. -/
structure Lawful (initial : SignalTable) (calls : List SignalCall) (p : SignalScope) : Prop where
  /-- While there is a handler, every signal is caught. -/
  caught : 0 < openHandlers calls → ∀ s, p.table.dispositions s = .caught
  /-- Without one, everything is as it was at first. -/
  uncaught : openHandlers calls = 0 → p.table.dispositions = initial.dispositions
  /-- Giving a handler up brings back what was in force before it was installed. -/
  restored : ∀ body, calls = body ++ [.drop] → ∃ before inside q,
    body = before ++ .install :: inside ∧ Balanced inside ∧
      run before ⟨[], initial⟩ = some q ∧ p.table.dispositions = q.table.dispositions
  /-- The answer to a question is the signal heard last, if there is one. -/
  taken : ∀ answer q, p.perform .take = some (answer, q) → ∀ s, answer = some s ↔ Heard calls s
  /-- The same question again has no answer. -/
  takenOnce : ∀ answer q, p.perform .take = some (answer, q) →
    ∃ q', q.perform .take = some (none, q')
  /-- The handler around the newest one gives the answer that this one would give. -/
  kept : ∀ answer q, p.perform .take = some (answer, q) → 1 < openHandlers calls →
    ∃ q' q'', p.perform .drop = some (none, q') ∧ q'.perform .take = some (answer, q'')
  /-- A new handler has no answer. -/
  discarded : ∃ q q', p.perform .install = some (none, q) ∧ q.perform .take = some (none, q')

theorem lawful_of_run {initial : SignalTable} {calls : List SignalCall} {p : SignalScope}
    (hrun : run calls ⟨[], initial⟩ = some p) : p.Lawful initial calls := by
  have h := reached_run hrun
  refine ⟨fun hopen => ?_, fun hnone => ?_, ?_, fun answer q hq => ?_, fun answer q hq => ?_,
    fun answer q hq hopen => ?_, ?_⟩
  · exact h.stacked.caught (h.openHandlers_pos_iff.mp hopen)
  · have hstacked := h.stacked
    rw [List.length_eq_zero_iff.mp (h.openHandlers_eq.symm.trans hnone)] at hstacked
    exact hstacked.eq_initial
  · rintro body rfl
    obtain ⟨p', hp', answer, hcall⟩ := run_snoc_iff.mp hrun
    cases hcall with
    | drop there =>
      obtain ⟨before, inside, q, hbody, hinside, hq, -, hprevious⟩ := exists_install hp' there
      exact ⟨before, inside, q, hbody, hinside, hq, hprevious.symm⟩
  · cases performs_of_perform hq with
    | take there => exact h.pending_iff there
  · cases performs_of_perform hq with
    | take there =>
      have hagain : Performs ⟨p.handlers, ⟨p.table.dispositions, none⟩⟩ .take none _ := .take there
      exact ⟨_, hagain.perform_eq⟩
  · rw [h.openHandlers_eq] at hopen
    have hne := List.length_pos_iff.mp (Nat.zero_lt_of_lt hopen)
    obtain ⟨handler, older, hp⟩ := List.exists_cons_of_ne_nil hne
    have holder : older ≠ [] := by
      rintro rfl
      simp [hp] at hopen
    cases performs_of_perform hq with
    | take => exact ⟨_, _, (Performs.drop hp).perform_eq, (Performs.take holder).perform_eq⟩
  · exact ⟨_, _, Performs.install.perform_eq, (Performs.take (List.cons_ne_nil _ _)).perform_eq⟩

/-- Handlers come and go and signals arrive, on a process that outlives a signal
before it has a handler. All sequences of calls are possible that find a handler
where they need one, and what comes of them follows from the calls. -/
theorem signal_scope_laws (initial : SignalTable)
    (survives : ∀ s, (initial.dispositions s).outlives s) (calls : List SignalCall) :
    ((∃ p, run calls ⟨[], initial⟩ = some p) ↔ Nested calls) ∧
      ∀ p, run calls ⟨[], initial⟩ = some p → p.Lawful initial calls :=
  ⟨exists_run_iff survives, fun _ => lawful_of_run⟩

/-- A hangup that arrives under an inner handler is left for the outer one. -/
theorem signal_scope_laws_nested :
    let initial := SignalTable.uniform .ignored
    let calls := [.raise .int, .install, .raise .term, .install, .raise .int, .raise .hup, .drop]
    (∀ s, (initial.dispositions s).outlives s) ∧ Nested calls ∧
      ∃ p, run calls ⟨[], initial⟩ = some p ∧ p.Lawful initial calls ∧ Heard calls .hup := by
  intro initial calls
  have survives : ∀ s, (initial.dispositions s).outlives s := fun _ => rfl
  obtain ⟨hpossible, hlaw⟩ := signal_scope_laws initial survives calls
  have hrun : ∃ p, run calls ⟨[], initial⟩ = some p := ⟨_, rfl⟩
  obtain ⟨p, hp⟩ := hrun
  refine ⟨survives, hpossible.mp ⟨p, hp⟩, p, hp, hlaw p hp, ?_⟩
  exact ⟨[.raise .int, .install, .raise .term, .install, .raise .int], [.drop], rfl, by decide,
    by decide⟩

end SignalScope
end BucketMount
