import BucketMount.Hooks.Session
import BucketMount.Proofs.Hooks.Setup
import Mathlib.Data.List.DropRight

/-!
# The ledger of a step

What the tracker holds can be read off the calls of the hooks: a setup of the
step adds a record for each mount that the back end says it has made, a
registration adds one, and a teardown of the step takes them all
(`tracker_call`). So at any time the tracker holds the records that were added
since the last teardown, and every record that was ever added is still held or
was taken by exactly one teardown (`session_ledger`).

The transport, the back end and the processes share a state of any type, so
what one of them answers may depend on all that was done before. A chain of
`TearsDown` that leaves the state of the teardown thus says what was called,
how often, and in which order.
-/

namespace BucketMount

/-- The record of a mount that the back end says it has made. -/
def Exchange.record? : Exchange → Option MountRecord
  | ⟨d, .ok (.mounted helper relay)⟩ => some ⟨Text.toUtf8 d.path, helper, relay⟩
  | _ => none

/-- Whether a call undoes the mounts of the step. -/
def HookCall.isStepTeardown : HookCall → Bool
  | stepTeardown => true
  | _ => false

theorem HookCall.eq_of_isStepTeardown {c : HookCall} (h : c.isStepTeardown) :
    c = stepTeardown := by
  cases c with
  | stepTeardown => rfl
  | _ => contradiction

/-- What is asked of a record for a clean report and what is counted against it are opposites. -/
theorem RecordTeardown.isClean_iff (r : RecordTeardown) : r.isClean ↔ ¬r.hasFailed := by
  obtain ⟨path, unmountError, helper, relay⟩ := r
  cases unmountError <;> simp [isClean, hasFailed]

theorem TeardownReport.isClean_iff (r : TeardownReport) : r.isClean ↔ r.failures = 0 := by
  unfold isClean failures
  rw [List.all_eq_true, List.countP_eq_zero]
  simp only [RecordTeardown.isClean_iff]

theorem Tracker.append_nil (t : Tracker) : { t with records := t.records ++ [] } = t := by
  rw [List.append_nil]

theorem Tracker.foldl_register (t : Tracker) (rs : List MountRecord) :
    rs.foldl Tracker.register t = { t with records := t.records ++ rs } := by
  induction rs generalizing t with
  | nil => simp
  | cons r rs ih =>
    rw [List.foldl_cons, ih]
    simp [register]

namespace Hooks

open MountList (tokens)

variable {ω : Type} (transport : Transport ω) (backend : Backend ω) (os : Processes ω)

/-! ## One record -/

/-- What is told of a path that could not be detached. -/
def detachFault : Except MountError Unit → Option Text
  | .ok () => none
  | .error e => some e.message

/-- How one record is torn down: its path is detached, then its helper is
stopped, then the reader of the helper's output if there is one. Neither of
the later steps depends on what came of the earlier ones. -/
inductive TearsDown (grace : Duration) : MountRecord → ω → RecordTeardown → ω → Prop where
  | alone {path : Bytes} {helper : Pid} {w w₁ w₂ : ω} {detached : Except MountError Unit}
      {stopped : KillReport} (detach : backend.unmount path w = (detached, w₁))
      (stop : os.terminate helper grace w₁ = (stopped, w₂)) :
      TearsDown grace ⟨path, helper, none⟩ w ⟨path, detachFault detached, stopped, none⟩ w₂
  | relayed {path : Bytes} {helper relay : Pid} {w w₁ w₂ w₃ : ω}
      {detached : Except MountError Unit} {stopped ended : KillReport}
      (detach : backend.unmount path w = (detached, w₁))
      (stop : os.terminate helper grace w₁ = (stopped, w₂))
      (reap : os.reapOrKill relay grace w₂ = (ended, w₃)) :
      TearsDown grace ⟨path, helper, some relay⟩ w ⟨path, detachFault detached, stopped, some ended⟩
        w₃

theorem tearsDown_teardownRecord (grace : Duration) (r : MountRecord) (w : ω) :
    TearsDown backend os grace r w (Tracker.teardownRecord backend os grace r w).1
      (Tracker.teardownRecord backend os grace r w).2 := by
  obtain ⟨path, helper, relay⟩ := r
  cases relay with
  | none => exact .alone rfl rfl
  | some relay => exact .relayed rfl rfl rfl

/-- A teardown of the step takes the records from the last to the first. -/
theorem exists_chain_stepTeardown (t : Tracker) (w : ω) :
    ∃ entries w', Chain (TearsDown backend os t.grace) t.records.reverse w entries w' ∧
      call transport backend os .stepTeardown (t, w) =
        (.undone ⟨entries⟩, Tracker.empty t.grace, w') :=
  ⟨_, _, chain_mapM (tearsDown_teardownRecord backend os t.grace) t.records.reverse w, rfl⟩

/-! ## One call -/

/-- A call with the state in which it is made. -/
structure Moment (ω : Type) where
  call : HookCall
  tracker : Tracker
  world : ω

/-- The records that a call adds: one for each mount that the back end says it
has made for the step, or the one that is registered. -/
def Moment.added (m : Moment ω) : List MountRecord :=
  match m.call with
  | .register r => [r]
  | .stepSetup id =>
    match transport.load m.world with
    | .error _ => []
    | .ok stored =>
      let (exchanges, _) := exchangeAll backend id (mountable (tokens (stored.getD []))) m.world
      exchanges.filterMap Exchange.record?
  | _ => []

/-- The records that a call takes. -/
def Moment.taken (m : Moment ω) : List MountRecord :=
  if m.call.isStepTeardown then m.tracker.records else []

theorem recordsOf_landings (landings : List Landing) :
    recordsOf (landings.filterMap Landing.attempt?) =
      (landings.filterMap Landing.exchange?).filterMap Exchange.record? := by
  unfold recordsOf
  rw [List.filterMap_filterMap, List.filterMap_filterMap]
  congr 1
  funext x
  rcases x with _ | _ | ⟨d, _ | _ | _⟩ <;> rfl

theorem tracker_stepSetup (id : Identity) (t : Tracker) (w : ω) :
    (call transport backend os (.stepSetup id) (t, w)).2.1 =
      { t with records := t.records ++ Moment.added transport backend ⟨.stepSetup id, t, w⟩ } := by
  unfold Moment.added
  change (stepSetup backend id (transport.load w) t w).1.2 = _
  dsimp only
  cases transport.load w with
  | error e => exact t.append_nil.symm
  | ok stored =>
    obtain ⟨landings, w', h⟩ := exists_landed backend id (tokens (stored.getD []))
      (fun _ => MountList.semicolon_notMem_of_mem_tokens) w
    rw [h.stepSetup_eq t, Tracker.foldl_register, recordsOf_landings]
    simp only [h.exchanges]

/-- A teardown of the step leaves no record, and any other call adds its own
after those that are held. -/
theorem tracker_call (c : HookCall) (t : Tracker) (w : ω) :
    (call transport backend os c (t, w)).2.1 =
      if c.isStepTeardown then Tracker.empty t.grace
      else { t with records := t.records ++ Moment.added transport backend ⟨c, t, w⟩ } := by
  cases c with
  | stepSetup id => exact tracker_stepSetup transport backend os id t w
  | register r => rfl
  | stepTeardown => rfl
  | capture raw base => exact t.append_nil.symm
  | nodeSetup id => exact t.append_nil.symm
  | nodeTeardown => exact t.append_nil.symm

/-! ## A run of calls -/

/-- The calls of a session, each in the state in which it is made. -/
def history : List HookCall → Tracker × ω → List (Moment ω)
  | [], _ => []
  | c :: calls, s => ⟨c, s.1, s.2⟩ :: history calls (call transport backend os c s).2

theorem session_cons (c : HookCall) (calls : List HookCall) (s : Tracker × ω) :
    (session transport backend os (c :: calls) s).2 =
      (session transport backend os calls (call transport backend os c s).2).2 := by
  unfold session
  rw [mapM_cons_run]
  rfl

theorem session_snoc (calls : List HookCall) (c : HookCall) (s : Tracker × ω) :
    (session transport backend os (calls ++ [c]) s).2 =
      (call transport backend os c (session transport backend os calls s).2).2 := by
  unfold session
  rw [List.mapM_append]
  rfl

theorem history_snoc (calls : List HookCall) (c : HookCall) (s : Tracker × ω) :
    history transport backend os (calls ++ [c]) s =
      history transport backend os calls s ++
        [⟨c, (session transport backend os calls s).2.1,
          (session transport backend os calls s).2.2⟩] := by
  induction calls generalizing s with
  | nil => rfl
  | cons d calls ih =>
    rw [List.cons_append, history, history, ih, session_cons, List.cons_append]

/-- What the tracker holds after some moments. -/
structure Ledger (grace : Duration) (past : List (Moment ω)) (t : Tracker) : Prop where
  grace_eq : t.grace = grace
  held : t.records = (past.rtakeWhile fun m => !m.call.isStepTeardown).flatMap
    (Moment.added transport backend)
  settled : past.flatMap (Moment.added transport backend) =
    past.flatMap Moment.taken ++ t.records

theorem ledger_empty (grace : Duration) :
    Ledger transport backend grace [] (Tracker.empty grace) := ⟨rfl, rfl, rfl⟩

/-- A call keeps the ledger. -/
theorem Ledger.call {grace : Duration} {past : List (Moment ω)} {t : Tracker}
    (h : Ledger transport backend grace past t) (c : HookCall) (w : ω) :
    Ledger transport backend grace (past ++ [⟨c, t, w⟩])
      (call transport backend os c (t, w)).2.1 := by
  rw [tracker_call]
  by_cases hc : c.isStepTeardown
  · -- no call has come after this teardown, and it took all that was held
    obtain rfl := HookCall.eq_of_isStepTeardown hc
    refine ⟨h.grace_eq, ?_, ?_⟩
    · rw [List.rtakeWhile_concat_neg _ _ _ (by simp [hc])]
      rfl
    · simp only [List.flatMap_append, List.flatMap_singleton, h.settled]
      simp [Moment.added, Moment.taken, Tracker.empty, hc]
  · rw [if_neg hc]
    refine ⟨h.grace_eq, ?_, ?_⟩
    · rw [List.rtakeWhile_concat_pos _ _ _ (by simpa using hc), List.flatMap_append,
        List.flatMap_singleton, ← h.held]
    · simp only [List.flatMap_append, List.flatMap_singleton, h.settled]
      simp [Moment.taken, hc]

theorem ledger_session (calls : List HookCall) (grace : Duration) (w : ω) :
    Ledger transport backend grace
      (history transport backend os calls (Tracker.empty grace, w))
      (session transport backend os calls (Tracker.empty grace, w)).2.1 := by
  induction calls using List.reverseRecOn with
  | nil => exact ledger_empty transport backend grace
  | append_singleton calls c ih =>
    rw [history_snoc, session_snoc]
    exact ih.call transport backend os c _

/-- **The ledger.** Whatever the transport, the back end and the processes do,
after any calls of the hooks the tracker holds, in order, the records that were
added since the last teardown of the step. A teardown at that time detaches the
path of each of them once, from the last to the first, stops its helper and
ends its relay whether or not the path could be detached, has one entry for
each in that order, and leaves no record. So what was ever added is, in order,
what the teardowns have taken and then what is held. A report is clean exactly
if it counts no failure. -/
theorem session_ledger (calls : List HookCall) (grace : Duration) (w : ω) :
    let past := history transport backend os calls (Tracker.empty grace, w)
    let (t, w') := (session transport backend os calls (Tracker.empty grace, w)).2
    t.grace = grace ∧
    t.records = (past.rtakeWhile fun m => !m.call.isStepTeardown).flatMap
      (Moment.added transport backend) ∧
    (∃ entries w'', Chain (TearsDown backend os grace) t.records.reverse w' entries w'' ∧
      call transport backend os .stepTeardown (t, w') =
        (.undone ⟨entries⟩, Tracker.empty grace, w'')) ∧
    past.flatMap (Moment.added transport backend) = past.flatMap Moment.taken ++ t.records ∧
    ∀ r : TeardownReport, r.isClean ↔ r.failures = 0 := by
  intro past
  obtain ⟨hgrace, hheld, htaken⟩ := ledger_session transport backend os calls grace w
  refine ⟨hgrace, hheld, ?_, htaken, TeardownReport.isClean_iff⟩
  have hdrain := exists_chain_stepTeardown transport backend os
    (session transport backend os calls (Tracker.empty grace, w)).2.1
    (session transport backend os calls (Tracker.empty grace, w)).2.2
  rw [hgrace] at hdrain
  exact hdrain

end Hooks
end BucketMount
