import BucketMount.Proofs.Hooks.Ledger
import BucketMount.Proofs.Journal

/-!
# What the hooks ask of a back end

The journal of each hook. A setup asks for mounts and for nothing else, and the
tracker gets a record for each mount that was made. A teardown of the step
detaches the paths of the records, the last one first, and otherwise only
stops and waits for processes. A teardown of the node detaches the path of
every directive, whatever the answers are.
-/

namespace BucketMount

/-- The paths of a list, in order. -/
def MountList.paths (l : MountList) : List Bytes := l.map fun d => Text.toUtf8 d.path

/-- The paths that were mounted, going by the answers. -/
def freshPaths (xs : List Exchange) : List Bytes :=
  (xs.filterMap Exchange.record?).map MountRecord.path

/-- The path that was detached, if it was this that was asked. -/
def Event.detachedPath? : Event → Option Bytes
  | .detached path _ => some path
  | _ => none

/-- The event is a signal to a process, or a question about one. -/
def Event.OfProcesses : Event → Prop
  | .waited _ _ | .signalled _ _ => True
  | _ => False

/-- The event belongs to a teardown. -/
def Event.Undoes : Event → Prop
  | .detached _ _ | .waited _ _ | .signalled _ _ => True
  | _ => False

/-- The paths that were detached, in order. -/
def Journal.detachedPaths (j : Journal) : List Bytes := j.filterMap Event.detachedPath?

theorem freshPaths_cons (x : Exchange) (xs : List Exchange) :
    freshPaths (x :: xs) = freshPaths [x] ++ freshPaths xs := by
  rw [freshPaths, ← List.singleton_append, List.filterMap_append, List.map_append]
  rfl

theorem Event.OfProcesses.undoes {e : Event} (h : e.OfProcesses) : e.Undoes := by
  cases e <;> trivial

theorem Journal.detachedPaths_append (j j' : Journal) :
    Journal.detachedPaths (j ++ j') = j.detachedPaths ++ j'.detachedPaths :=
  List.filterMap_append

theorem Journal.detachedPaths_of_processes {j : Journal} (h : ∀ e ∈ j, e.OfProcesses) :
    j.detachedPaths = [] := by
  refine List.filterMap_eq_nil_iff.mpr fun e he => ?_
  cases e with
  | detached path answer => exact absurd (h _ he) id
  | _ => rfl

theorem Journal.detachedPaths_asked (xs : List Exchange) :
    Journal.detachedPaths (xs.map .asked) = [] := by
  simp [detachedPaths, List.filterMap_eq_nil_iff, Event.detachedPath?]

section Asked

variable {ω : Type}

theorem Backend.logs_mount (b : Backend ω) (d : Directive) (id : Identity) :
    Logs Prod.fst (b.journaled.mount d id) fun answer events => events = [.asked ⟨d, answer⟩] :=
  logs_noting _ _

theorem Backend.logs_unmount (b : Backend ω) (path : Bytes) :
    Logs Prod.fst (b.journaled.unmount path) fun answer events =>
      events = [.detached path answer] :=
  logs_noting _ _

variable (os : Processes ω) (pid : Pid) (j : Journal)

theorem Processes.handling_grows :
    os.journaled.Handling pid (fun s => j.Grows Event.OfProcesses s.1)
      (fun s => j.Grows Event.OfProcesses s.1) where
  sleep _ _ h := h
  kill _ _ h := h.snoc trivial
  poll s h := by
    have := h.snoc (e := .waited pid (os.poll pid s.2).1) trivial
    dsimp only
    split <;> exact this
  letGo _ h := h

theorem Processes.logs_terminate (grace : Duration) :
    Logs Prod.fst (os.journaled.terminate pid grace) fun _ events => ∀ e ∈ events, e.OfProcesses :=
  .of_grows fun j => (os.handling_grows pid j).terminate grace

theorem Processes.logs_reapOrKill (grace : Duration) :
    Logs Prod.fst (os.journaled.reapOrKill pid grace) fun _ events => ∀ e ∈ events, e.OfProcesses :=
  .of_grows fun j => (os.handling_grows pid j).reapOrKill grace

end Asked

namespace Hooks

open MountList (tokens)

variable {ω : Type} (b : Backend ω) (os : Processes ω) (id : Identity)

/-! ## Setups -/

/-- The questions of a setup are what it adds. -/
theorem logs_exchangeAll (l : MountList) :
    Logs Prod.fst (exchangeAll b.journaled id l) fun xs events =>
      xs.map Exchange.directive = l ∧ events = xs.map .asked := by
  refine .mapM (I := fun l xs (events : Journal) =>
    xs.map Exchange.directive = l ∧ events = xs.map .asked) ⟨rfl, rfl⟩ (fun d => ?_) l
  refine .bind (b.logs_mount d id) fun answer before hbefore => .pure ?_
  rintro l xs after ⟨rfl, rfl⟩
  simp [hbefore]

/-- A setup of the step asks its questions and makes its records of the answers. -/
theorem stepSetup_eq (stored : Option Text) (t : Tracker) (w : ω) :
    ∃ report : SetupReport, stepSetup b id (.ok stored) t w =
      let after := exchangeAll b id (mountable (tokens (stored.getD []))) w
      ((.ok report, { t with records := t.records ++ after.1.filterMap Exchange.record? }),
        after.2) := by
  obtain ⟨landings, w', h⟩ := exists_landed b id (tokens (stored.getD []))
    (fun _ => MountList.semicolon_notMem_of_mem_tokens) w
  refine ⟨.ofLandings landings, ?_⟩
  rw [h.stepSetup_eq t, Tracker.foldl_register, recordsOf_landings, h.exchanges]

/-- What a setup of the step adds, and which records it makes of it. -/
theorem logs_stepSetup (stored : Option Text) (t : Tracker) :
    Logs Prod.fst (stepSetup b.journaled id (.ok stored) t) fun answer events =>
      ∃ (report : SetupReport) (xs : List Exchange),
        answer = (.ok report, { t with records := t.records ++ xs.filterMap Exchange.record? }) ∧
        xs.map Exchange.directive = mountable (tokens (stored.getD [])) ∧
        events = xs.map .asked := by
  intro s
  obtain ⟨report, h⟩ := stepSetup_eq b.journaled id stored t s
  obtain ⟨events, hevents, hxs⟩ := logs_exchangeAll b id (mountable (tokens (stored.getD []))) s
  rw [h]
  exact ⟨events, hevents, report, _, rfl, hxs⟩

/-! ## Teardowns -/

theorem logs_teardownRecord (grace : Duration) (r : MountRecord) :
    Logs Prod.fst (Tracker.teardownRecord b.journaled os.journaled grace r) fun _ (events : Journal) =>
      events.detachedPaths = [r.path] ∧ ∀ e ∈ events, e.Undoes := by
  obtain ⟨path, helper, relay⟩ := r
  have hrelay : Logs Prod.fst (relay.mapM fun pid => os.journaled.reapOrKill pid grace)
      fun _ events => ∀ e ∈ events, e.OfProcesses := by
    cases relay with
    | none => exact .pure (by simp)
    | some pid =>
      refine .bind (os.logs_reapOrKill pid grace) fun report events hevents => .pure ?_
      simpa using hevents
  refine .bind (b.logs_unmount path) fun answer detached hdetached => ?_
  refine .bind (os.logs_terminate helper grace) fun stopped killed hkilled => ?_
  refine .bind hrelay fun ended reaped hreaped => .pure ?_
  subst hdetached
  have hlater : ∀ e ∈ killed ++ (reaped ++ []), e.OfProcesses := by
    simpa [or_imp, forall_and] using ⟨hkilled, hreaped⟩
  constructor
  · exact congrArg (path :: ·) (Journal.detachedPaths_of_processes hlater)
  · exact List.forall_mem_cons.mpr ⟨trivial, fun e he => (hlater e he).undoes⟩

/-- A teardown of the step detaches the records from the last to the first. -/
theorem logs_stepTeardown (t : Tracker) :
    Logs Prod.fst (stepTeardown b.journaled os.journaled t) fun answer (events : Journal) =>
      answer.2 = .empty t.grace ∧
        events.detachedPaths = (t.records.map MountRecord.path).reverse ∧
        ∀ e ∈ events, e.Undoes := by
  refine .bind (.mapM (I := fun rs _ (events : Journal) =>
    events.detachedPaths = rs.map MountRecord.path ∧ ∀ e ∈ events, e.Undoes) ⟨rfl, by simp⟩
    (fun r => ?_) t.records.reverse) fun entries events hevents => .pure ?_
  · refine (logs_teardownRecord b os t.grace r).imp ?_
    rintro entry before ⟨hpath, hbefore⟩ rs entries after ⟨hpaths, hafter⟩
    constructor
    · rw [Journal.detachedPaths_append, hpath, hpaths]
      rfl
    · simpa [or_imp, forall_and] using ⟨hbefore, hafter⟩
  · rw [List.append_nil, ← List.map_reverse]
    exact ⟨rfl, hevents⟩

/-- A teardown of the node detaches the directives from the first to the last. -/
theorem logs_nodeTeardown (stored : Option Text) :
    Logs Prod.fst (nodeTeardown b.journaled (.ok stored)) fun answer events =>
      ∃ attempts : List (Bytes × Except MountError Unit),
        attempts.map Prod.fst = (MountList.decodeLenient (stored.getD [])).1.paths ∧
        events = attempts.map (fun (path, answer) => .detached path answer) ∧
        answer = .ok (attempts.filter fun (_, answer) => !answer.isOk).length := by
  refine .bind (.mapM (I := fun l answers events =>
    ∃ attempts : List (Bytes × Except MountError Unit),
      attempts.map Prod.fst = MountList.paths l ∧ attempts.map Prod.snd = answers ∧
      events = attempts.map fun (path, answer) => .detached path answer) ⟨[], rfl, rfl, rfl⟩
    (fun d => ?_) _) fun answers events hevents => .pure ?_
  · refine (b.logs_unmount (Text.toUtf8 d.path)).imp ?_
    rintro answer _ rfl l _ _ ⟨attempts, hpaths, rfl, rfl⟩
    exact ⟨(Text.toUtf8 d.path, answer) :: attempts, by simp [hpaths, MountList.paths], rfl, rfl⟩
  · obtain ⟨attempts, hpaths, rfl, rfl⟩ := hevents
    refine ⟨attempts, hpaths, List.append_nil _, ?_⟩
    rw [List.filter_map, List.length_map]
    rfl

end Hooks
end BucketMount
