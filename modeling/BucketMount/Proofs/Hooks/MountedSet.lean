import BucketMount.Proofs.Dictation
import BucketMount.Proofs.Hooks.Calls
import BucketMount.Rehearsal
import Mathlib.Data.Set.Lattice

/-!
# What is mounted before and after

A back end keeps a set of mounted places if its answers and the set go together
(`Backend.KeepsSet`): some places cannot be mounted, some cannot be detached,
and otherwise a mount adds a place and a detachment takes it away. Which paths
stand for one place is left open, and so are the errors.

A step then undoes what it has mounted itself, as far as that can be undone,
and nothing else (`steps_undo`).
-/

namespace BucketMount

variable {ω κ : Type}

/-- Waiting and what is done to processes leave what a view sees as it is. -/
structure Processes.Leaves (os : Processes ω) (view : ω → Set κ) : Prop where
  sleep : ∀ d w, view (os.sleep d w) = view w
  kill : ∀ pid signal w, view (os.kill pid signal w).2 = view w
  poll : ∀ pid w, view (os.poll pid w).2 = view w

theorem Processes.Leaves.handling {os : Processes ω} {view : ω → Set κ} (h : os.Leaves view)
    (pid : Pid) (P : Set κ → Prop) :
    os.Handling pid (fun w => P (view w)) (fun w => P (view w)) where
  sleep d w hw := by rwa [h.sleep]
  kill signal w hw := (congrArg P (h.kill pid signal w)).mpr hw
  poll w hw := by
    dsimp only
    split <;> exact (congrArg P (h.poll pid w)).mpr hw
  letGo _ hw := hw

theorem Processes.Leaves.journaled {os : Processes ω} {view : ω → Set κ} (h : os.Leaves view) :
    os.journaled.Leaves fun s => view s.2 where
  sleep d s := h.sleep d s.2
  kill pid signal s := h.kill pid signal s.2
  poll pid s := h.poll pid s.2

/-- The answers of the back end go with the set of mounted places. -/
structure Backend.KeepsSet (b : Backend ω) (place : Bytes → κ) (mounted : ω → Set κ)
    (broken stuck : Set κ) : Prop where
  mount_broken : ∀ d id w, place (Text.toUtf8 d.path) ∈ broken →
    (∃ e, (b.mount d id w).1 = .error e) ∧ mounted (b.mount d id w).2 = mounted w
  mount_present : ∀ d id w, place (Text.toUtf8 d.path) ∉ broken →
    place (Text.toUtf8 d.path) ∈ mounted w →
      (b.mount d id w).1 = .ok .alreadyMounted ∧ mounted (b.mount d id w).2 = mounted w
  mount_fresh : ∀ d id w, place (Text.toUtf8 d.path) ∉ broken →
    place (Text.toUtf8 d.path) ∉ mounted w →
      (∃ helper relay, (b.mount d id w).1 = .ok (.mounted helper relay)) ∧
        mounted (b.mount d id w).2 = insert (place (Text.toUtf8 d.path)) (mounted w)
  unmount_stuck : ∀ path w, place path ∈ stuck →
    (∃ e, (b.unmount path w).1 = .error e) ∧ mounted (b.unmount path w).2 = mounted w
  unmount_free : ∀ path w, place path ∉ stuck →
    (b.unmount path w).1 = .ok () ∧ mounted (b.unmount path w).2 = mounted w \ {place path}

/-- The places for which some paths stand. -/
def placesOf (place : Bytes → κ) (paths : List Bytes) : Set κ :=
  {p | ∃ path ∈ paths, place path = p}

section Places

variable (place : Bytes → κ)

@[simp] theorem placesOf_nil : placesOf place [] = ∅ := by
  simp [placesOf]

@[simp] theorem placesOf_cons (path : Bytes) (paths : List Bytes) :
    placesOf place (path :: paths) = insert (place path) (placesOf place paths) := by
  ext p
  simp [placesOf, eq_comm]

@[simp] theorem placesOf_append (paths paths' : List Bytes) :
    placesOf place (paths ++ paths') = placesOf place paths ∪ placesOf place paths' := by
  ext p
  simp [placesOf, or_and_right, exists_or]

@[simp] theorem placesOf_reverse (paths : List Bytes) :
    placesOf place paths.reverse = placesOf place paths := by
  simp [placesOf]

end Places

/-- Detachments one after the other. -/
theorem mounted_mapM {α β : Type} {place : Bytes → κ} {mounted : ω → Set κ} {stuck : Set κ}
    {f : α → StateM ω β} {path : α → Bytes}
    (step : ∀ a w, mounted (f a w).2 = mounted w \ ({place (path a)} \ stuck))
    (as : List α) (w : ω) :
    mounted (as.mapM f w).2 = mounted w \ (placesOf place (as.map path) \ stuck) := by
  induction as generalizing w with
  | nil =>
    change mounted w = mounted w \ (placesOf place [] \ _)
    simp
  | cons a as ih =>
    rw [mapM_cons_run]
    change mounted (as.mapM f (f a w).2).2 = _
    rw [ih, step, List.map_cons, placesOf_cons]
    grind

namespace Backend.KeepsSet

open Hooks

variable {b : Backend ω} {place : Bytes → κ} {mounted : ω → Set κ} {broken stuck : Set κ}

/-- A journal beside the state does not matter. -/
theorem journaled (h : b.KeepsSet place mounted broken stuck) :
    b.journaled.KeepsSet place (fun s => mounted s.2) broken stuck where
  mount_broken d id s := h.mount_broken d id s.2
  mount_present d id s := h.mount_present d id s.2
  mount_fresh d id s := h.mount_fresh d id s.2
  unmount_stuck path s := h.unmount_stuck path s.2
  unmount_free path s := h.unmount_free path s.2

/-- A question adds a place that is neither broken nor there already, and
exactly then it says so. -/
theorem mount (h : b.KeepsSet place mounted broken stuck) (d : Directive) (id : Identity) (w : ω) :
    mounted (b.mount d id w).2 = mounted w ∪ ({place (Text.toUtf8 d.path)} \ broken) ∧
    placesOf place (freshPaths [⟨d, (b.mount d id w).1⟩]) =
      ({place (Text.toUtf8 d.path)} \ broken) \ mounted w := by
  by_cases hbroken : place (Text.toUtf8 d.path) ∈ broken
  · obtain ⟨⟨e, hanswer⟩, hset⟩ := h.mount_broken d id w hbroken
    rw [hanswer, hset]
    change _ ∧ placesOf place [] = _
    grind [placesOf_nil]
  by_cases hpresent : place (Text.toUtf8 d.path) ∈ mounted w
  · obtain ⟨hanswer, hset⟩ := h.mount_present d id w hbroken hpresent
    rw [hanswer, hset]
    change _ ∧ placesOf place [] = _
    grind [placesOf_nil]
  · obtain ⟨⟨helper, relay, hanswer⟩, hset⟩ := h.mount_fresh d id w hbroken hpresent
    rw [hanswer, hset]
    change _ ∧ placesOf place [Text.toUtf8 d.path] = _
    grind [placesOf_nil, placesOf_cons]

/-- What the questions of a setup add, and what they say they have added. -/
theorem exchangeAll (h : b.KeepsSet place mounted broken stuck) (id : Identity) (l : MountList)
    (w : ω) :
    mounted (exchangeAll b id l w).2 = mounted w ∪ (placesOf place l.paths \ broken) ∧
    placesOf place (freshPaths (Hooks.exchangeAll b id l w).1) =
      (placesOf place l.paths \ broken) \ mounted w := by
  induction l generalizing w with
  | nil =>
    change mounted w = mounted w ∪ (placesOf place [] \ broken) ∧
      placesOf place [] = (placesOf place [] \ broken) \ mounted w
    simp
  | cons d l ih =>
    obtain ⟨hset, hfresh⟩ := h.mount d id w
    obtain ⟨hset', hfresh'⟩ := ih (b.mount d id w).2
    rw [exchangeAll_cons]
    change mounted (Hooks.exchangeAll b id l (b.mount d id w).2).2 =
        mounted w ∪ (placesOf place (Text.toUtf8 d.path :: MountList.paths l) \ broken) ∧
      placesOf place (freshPaths (⟨d, (b.mount d id w).1⟩ ::
        (Hooks.exchangeAll b id l (b.mount d id w).2).1)) =
        (placesOf place (Text.toUtf8 d.path :: MountList.paths l) \ broken) \ mounted w
    rw [freshPaths_cons, placesOf_append, hfresh, hfresh', hset', hset, placesOf_cons]
    grind

/-- A detachment takes a place away unless it is stuck. -/
theorem unmount (h : b.KeepsSet place mounted broken stuck) (path : Bytes) (w : ω) :
    mounted (b.unmount path w).2 = mounted w \ ({place path} \ stuck) := by
  by_cases hstuck : place path ∈ stuck
  · rw [(h.unmount_stuck path w hstuck).2]
    grind
  · rw [(h.unmount_free path w hstuck).2]
    grind

theorem teardownRecord (h : b.KeepsSet place mounted broken stuck) {os : Processes ω}
    (hos : os.Leaves mounted) (grace : Duration) (r : MountRecord) (w : ω) :
    mounted (Tracker.teardownRecord b os grace r w).2 = mounted w \ ({place r.path} \ stuck) := by
  obtain ⟨path, helper, relay⟩ := r
  let left : Set κ := mounted w \ ({place path} \ stuck)
  have detached : Ensures (· = w) (b.unmount path) fun _ w => mounted w = left := by
    rintro _ rfl
    exact h.unmount path _
  have stopped (pid : Pid) := (hos.handling pid (· = left)).terminate grace
  have reaped (pid : Pid) := (hos.handling pid (· = left)).reapOrKill grace
  have all : Ensures (· = w) (Tracker.teardownRecord b os grace ⟨path, helper, relay⟩)
      fun _ w => mounted w = left := by
    refine .bind detached fun _ => .bind (stopped helper) fun _ => ?_
    refine .bind ?_ fun _ => .pure fun _ hw => hw
    cases relay with
    | none => exact .pure fun _ hw => hw
    | some pid => exact .bind (reaped pid) fun _ => .pure fun _ hw => hw
  exact all w rfl

/-- What the teardown of a step takes away. -/
theorem stepTeardown (h : b.KeepsSet place mounted broken stuck) {os : Processes ω}
    (hos : os.Leaves mounted) (t : Tracker) (w : ω) :
    mounted (stepTeardown b os t w).2 =
      mounted w \ (placesOf place (t.records.map MountRecord.path) \ stuck) := by
  rw [← placesOf_reverse, ← List.map_reverse]
  exact mounted_mapM (h.teardownRecord hos t.grace) t.records.reverse w

/-- What the teardown of a node takes away. -/
theorem nodeTeardown (h : b.KeepsSet place mounted broken stuck) (stored : Option Text) (w : ω) :
    mounted (nodeTeardown b (.ok stored) w).2 =
      mounted w \ (placesOf place (MountList.decodeLenient (stored.getD [])).1.paths \ stuck) := by
  have step (d : Directive) (w : ω) :
      mounted (b.unmount (Text.toUtf8 d.path) w).2 =
        mounted w \ ({place (Text.toUtf8 d.path)} \ stuck) :=
    h.unmount (Text.toUtf8 d.path) w
  exact mounted_mapM step _ w

end Backend.KeepsSet

namespace Hooks

open MountList (tokens)

/-! ## Steps -/

/-- What a step is given: for whom, with which text, and how long its helpers
have to end. -/
structure StepRequest where
  id : Identity
  stored : Option Text
  grace : Duration

/-- What a step asks for. -/
def StepRequest.mounts (r : StepRequest) : MountList := mountable (tokens (r.stored.getD []))

/-- The setup of a step and then its teardown, with nothing in between. -/
def bareStep (b : Backend ω) (os : Processes ω) (r : StepRequest) : StateM ω Unit := do
  let (_, t) ← stepSetup b r.id (.ok r.stored) (.empty r.grace)
  let _ ← stepTeardown b os t

/-- From `s` a step leads to `s'`, and has undone what it could: nothing else
was detached than what it had mounted, each of that once, and the places that
it mounted and that are stuck are all that is left of it. -/
structure Undone (place : Bytes → κ) (mounted : ω → Set κ) (broken stuck : Set κ)
    (r : StepRequest) (xs : List Exchange) (undo : Journal) (s s' : Journal × ω) : Prop where
  journal : s'.1 = s.1 ++ (xs.map .asked ++ undo)
  directives : xs.map Exchange.directive = r.mounts
  fresh : placesOf place (freshPaths xs) = (placesOf place r.mounts.paths \ broken) \ mounted s.2
  detached : undo.detachedPaths = (freshPaths xs).reverse
  undoes : ∀ e ∈ undo, e.Undoes
  left : mounted s'.2 = mounted s.2 ∪ (placesOf place (freshPaths xs) ∩ stuck)

variable {b : Backend ω} {os : Processes ω} {place : Bytes → κ} {mounted : ω → Set κ}
variable {broken stuck : Set κ}

theorem bareStep_eq {r : StepRequest} {s s₁ : Journal × ω} {answer : Except MountError SetupReport}
    {t : Tracker} {b : Backend (Journal × ω)} {os : Processes (Journal × ω)}
    (h : stepSetup b r.id (.ok r.stored) (.empty r.grace) s = ((answer, t), s₁)) :
    (bareStep b os r s).2 = (stepTeardown b os t s₁).2 := by
  unfold bareStep
  simp only [bind, StateT.bind]
  rw [h]
  rfl

theorem exists_undone (h : b.KeepsSet place mounted broken stuck) (hos : os.Leaves mounted)
    (r : StepRequest) (s : Journal × ω) :
    ∃ xs undo, Undone place mounted broken stuck r xs undo s
      (bareStep b.journaled os.journaled r s).2 := by
  obtain ⟨report, hsetup⟩ := stepSetup_eq b.journaled r.id r.stored (.empty r.grace) s
  obtain ⟨hset, hfresh⟩ := h.journaled.exchangeAll r.id r.mounts s
  obtain ⟨_, hasked, hdirectives, rfl⟩ := logs_exchangeAll b r.id r.mounts s
  rw [bareStep_eq hsetup]
  change ∃ xs undo, Undone place mounted broken stuck r xs undo s
    (stepTeardown b.journaled os.journaled ⟨(exchangeAll b.journaled r.id r.mounts s).1.filterMap
      Exchange.record?, r.grace⟩ (exchangeAll b.journaled r.id r.mounts s).2).2
  generalize exchangeAll b.journaled r.id r.mounts s = after at *
  obtain ⟨xs, s₁⟩ := after
  obtain ⟨undo, hundo, -, hdetached, hundoes⟩ := logs_stepTeardown b os ⟨xs.filterMap _, r.grace⟩ s₁
  refine ⟨xs, undo, ?_, hdirectives, hfresh, hdetached, hundoes, ?_⟩
  · rw [hundo, hasked, List.append_assoc]
  · have hleft := h.journaled.stepTeardown hos.journaled ⟨xs.filterMap Exchange.record?, r.grace⟩ s₁
    change _ = _ \ (placesOf place (freshPaths xs) \ stuck) at hleft
    rw [hleft, hset, hfresh]
    grind

/-- Nothing that was mounted before the step is detached or lost. -/
theorem Undone.spares {r : StepRequest} {xs : List Exchange} {undo : Journal} {s s' : Journal × ω}
    (h : Undone place mounted broken stuck r xs undo s s') :
    mounted s.2 ⊆ mounted s'.2 ∧
      ∀ path ∈ Journal.detachedPaths (xs.map .asked ++ undo), place path ∉ mounted s.2 := by
  constructor
  · rw [h.left]
    exact Set.subset_union_left
  · intro path hpath
    rw [Journal.detachedPaths_append, Journal.detachedPaths_asked, List.nil_append,
      h.detached] at hpath
    have hplace : place path ∈ placesOf place (freshPaths xs) :=
      ⟨path, List.mem_reverse.mp hpath, rfl⟩
    rw [h.fresh] at hplace
    exact hplace.2

/-- **A step undoes what it has mounted.** Let a back end keep a set of mounted
places. Whatever text a step is given, its setup and teardown leave the places
that were mounted before, and those that the step has mounted itself and that
are stuck; and only what the step has mounted is detached. So any number of
steps leaves alone what was mounted before them. -/
theorem steps_undo (h : b.KeepsSet place mounted broken stuck) (hos : os.Leaves mounted) :
    (∀ r s, ∃ xs undo, Undone place mounted broken stuck r xs undo s
      (bareStep b.journaled os.journaled r s).2) ∧
    ∀ (rs : List StepRequest) (s : Journal × ω),
      let s' := (rs.mapM (bareStep b.journaled os.journaled) s).2
      mounted s.2 ⊆ mounted s'.2 ∧
      ∃ events, s'.1 = s.1 ++ events ∧
        ∀ path ∈ events.detachedPaths, place path ∉ mounted s.2 := by
  refine ⟨exists_undone h hos, fun rs s => ?_⟩
  -- a path that was mounted at the start is there before every step, so no step takes it for its own
  let Spared (s' : Journal × ω) : Prop := mounted s.2 ⊆ mounted s'.2 ∧
    ∃ events, s'.1 = s.1 ++ events ∧ ∀ path ∈ events.detachedPaths, place path ∉ mounted s.2
  have step (r : StepRequest) : Keeps Spared (bareStep b.journaled os.journaled r) := by
    rintro s₁ ⟨hkept, events, hjournal, hevents⟩
    obtain ⟨xs, undo, hundone⟩ := exists_undone h hos r s₁
    obtain ⟨hkept', hspared⟩ := hundone.spares
    refine ⟨hkept.trans hkept', events ++ (xs.map .asked ++ undo), ?_, ?_⟩
    · rw [hundone.journal, hjournal, List.append_assoc]
    · intro path hpath
      rw [Journal.detachedPaths_append] at hpath
      rcases List.mem_append.mp hpath with hpath | hpath
      · exact hevents path hpath
      · exact fun hplace => hspared path hpath (hkept hplace)
  exact Ensures.mapM (I := fun _ => Spared) (fun r _ => step r) rs s
    ⟨subset_rfl, [], by simp, by simp [Journal.detachedPaths]⟩

end Hooks

/-! ## Rehearsals -/

/-- The paths that count as mounted in a rehearsal. -/
def Rehearsal.paths (s : Rehearsal × ω) : Set Bytes := {path | path ∈ s.1.mounted}

theorem Rehearsal.paths_addPath (r : Rehearsal) (path : Bytes) (w : ω) :
    paths (r.addPath path, w) = insert path (paths (r, w)) := by
  ext p
  simp [paths, addPath, or_comm]

theorem Rehearsal.paths_removePath (r : Rehearsal) (path : Bytes) (w : ω) :
    paths (r.removePath path, w) = paths (r, w) \ {path} := by
  ext p
  simp [paths, removePath]

theorem RehearsalPlan.keepsSet (plan : RehearsalPlan ω) :
    plan.backend.KeepsSet id Rehearsal.paths {path | (plan.broken path).isSome}
      {path | plan.isStuck path} where
  mount_broken d _ _ h := by
    have hbroken : (plan.broken (Text.toUtf8 d.path)).isSome := h
    obtain ⟨e, he⟩ := Option.isSome_iff_exists.mp hbroken
    unfold backend
    dsimp only
    rw [he]
    exact ⟨⟨e, rfl⟩, rfl⟩
  mount_present d _ s h hpresent := by
    have hfine : plan.broken (Text.toUtf8 d.path) = none := Option.not_isSome_iff_eq_none.mp h
    have hany : (s.1.note (.mount d)).mounted.any (· = Text.toUtf8 d.path) :=
      List.any_eq_true.mpr ⟨_, hpresent, decide_eq_true rfl⟩
    unfold backend
    dsimp only
    rw [hfine]
    dsimp only
    rw [if_pos hany]
    exact ⟨rfl, rfl⟩
  mount_fresh d _ s h hnew := by
    have hfine : plan.broken (Text.toUtf8 d.path) = none := Option.not_isSome_iff_eq_none.mp h
    have hany : ¬(s.1.note (.mount d)).mounted.any (· = Text.toUtf8 d.path) := by
      intro hany
      obtain ⟨path, hpath, heq⟩ := List.any_eq_true.mp hany
      exact hnew (of_decide_eq_true heq ▸ hpath)
    unfold backend
    dsimp only
    rw [hfine]
    dsimp only
    rw [if_neg hany]
    exact ⟨⟨_, _, rfl⟩, Rehearsal.paths_addPath _ _ _⟩
  unmount_stuck path _ h := by
    have hstuck : plan.isStuck path = true := h
    unfold backend
    dsimp only
    rw [if_pos hstuck]
    exact ⟨⟨_, rfl⟩, rfl⟩
  unmount_free path _ h := by
    have hfree : ¬plan.isStuck path = true := h
    unfold backend
    dsimp only
    rw [if_neg hfree]
    exact ⟨rfl, Rehearsal.paths_removePath _ _ _⟩

theorem Processes.leaves_beside (os : Processes ω) :
    (os.beside Rehearsal).Leaves Rehearsal.paths where
  sleep _ _ := rfl
  kill _ _ _ := rfl
  poll _ _ := rfl

/-- A rehearsal in which one path cannot be mounted and one cannot be detached. -/
def RehearsalPlan.faulty : RehearsalPlan Dictation where
  broken path := if path = Text.toUtf8 "/x".toList then some (.timeout "/x".toList 9) else none
  isStuck path := path = Text.toUtf8 "/s".toList
  start _ := pure (7, none)

/-- What a node has mounted survives two steps. -/
theorem Hooks.steps_undo_rehearsal :
    let b := RehearsalPlan.faulty.backend
    let os := Dictation.kernel.toProcesses.beside Rehearsal
    let broken : Set Bytes := {path | (RehearsalPlan.faulty.broken path).isSome}
    let stuck : Set Bytes := {path | RehearsalPlan.faulty.isStuck path}
    let r : StepRequest := ⟨⟨0, 0, none, []⟩, some "/n;/s;/x;/y;/s;z;a:".toList, 0⟩
    let s : Journal × Rehearsal × Dictation :=
      ([], ⟨[Text.toUtf8 "/n".toList], []⟩, ⟨[], [], [], [], [], 0⟩)
    b.KeepsSet id Rehearsal.paths broken stuck ∧ os.Leaves Rehearsal.paths ∧
      (∃ xs undo, Undone id Rehearsal.paths broken stuck r xs undo s
        (bareStep b.journaled os.journaled r s).2) ∧
      Rehearsal.paths s.2 ⊆
        Rehearsal.paths ([r, r].mapM (bareStep b.journaled os.journaled) s).2.2 := by
  intro b os broken stuck r s
  have h : b.KeepsSet id Rehearsal.paths broken stuck := RehearsalPlan.faulty.keepsSet
  have hos : os.Leaves Rehearsal.paths := Dictation.kernel.toProcesses.leaves_beside
  obtain ⟨one, many⟩ := steps_undo h hos
  exact ⟨h, hos, one r s, (many [r, r] s).1⟩

end BucketMount
