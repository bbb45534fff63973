import BucketMount.Proofs.Hooks.MountedSet
import BucketMount.Proofs.Hooks.PathScopes

/-!
# What a teardown of the node reaches

The setup of a node passes over a directive with a relative path, and the
teardown does not: it detaches the path of every directive of the text. So
beside what the setup of the same text asks for, which comes in the same order,
a teardown detaches the relative paths (`nodeTeardown_reaches`). A text that
captures have left has none. In one that was put there by other means there may
be some, and then a path is detached that no setup mounts
(`nodeTeardown_relative`).
-/

namespace BucketMount

/-- The path for which a mount was asked, if it was this that was asked. -/
def Event.askedPath? : Event → Option Bytes
  | .asked x => some x.directive.place
  | _ => none

/-- The paths for which a mount was asked, in order. -/
def Journal.askedPaths (j : Journal) : List Bytes := j.filterMap Event.askedPath?

theorem Journal.askedPaths_asked (xs : List Exchange) :
    Journal.askedPaths (xs.map .asked) = MountList.paths (xs.map Exchange.directive) := by
  rw [askedPaths, MountList.paths, List.filterMap_map, List.map_map, ← List.filterMap_eq_map]
  rfl

theorem Journal.detachedPaths_detached (attempts : List (Bytes × Except MountError Unit)) :
    Journal.detachedPaths (attempts.map fun (path, answer) => .detached path answer) =
      attempts.map Prod.fst := by
  rw [detachedPaths, List.filterMap_map, ← List.filterMap_eq_map]
  rfl

/-- The path starts at the root, so that it does not matter from where it is
looked at. -/
def PathName.startsAtRoot (path : Bytes) : Bool := path.head? = some slash

theorem Directive.startsAtRoot_place (d : Directive) :
    PathName.startsAtRoot d.place = d.isAbsolute := by
  refine Bool.eq_iff_iff.mpr ⟨fun h => ?_, fun h => decide_eq_true (head?_place h)⟩
  have hhead : d.place.head? = some PathName.slash := of_decide_eq_true h
  cases hpath : d.path with
  | nil => exact absurd hpath d.admissible.path_ne_nil
  | cons c path =>
    -- the first byte belongs to the first character, which it determines
    rw [place, hpath, Text.toUtf8_cons, List.head?_append_of_ne_nil _
      (List.ne_nil_of_length_pos (Text.length_charBytes_pos c))] at hhead
    have hc : '/' = c := (Text.mem_charBytes_iff (by decide)).mp (List.mem_of_head? hhead)
    rw [isAbsolute, hpath, ← hc]
    rfl

/-- The paths of a list that start at the root are those of its absolute
directives. -/
theorem MountList.filter_paths (l : MountList) :
    l.paths.filter PathName.startsAtRoot = MountList.paths (l.filter (·.isAbsolute)) := by
  unfold paths
  rw [List.filter_map]
  exact congrArg (List.map _) (List.filter_congr fun d _ => d.startsAtRoot_place)

/-- No other directive of a list has the path of a relative one. -/
theorem MountList.paths_subset_iff (l : MountList) :
    l.paths ⊆ MountList.paths (l.filter (·.isAbsolute)) ↔ ∀ d ∈ l, d.isAbsolute := by
  rw [← filter_paths]
  constructor
  · intro h d hd
    rw [← d.startsAtRoot_place]
    exact (List.mem_filter.mp (h (List.mem_map_of_mem hd))).2
  · intro h path hpath
    obtain ⟨d, hd, rfl⟩ := List.mem_map.mp hpath
    exact List.mem_filter.mpr ⟨hpath, d.startsAtRoot_place.trans (h d hd)⟩

namespace Hooks

open MountList (decodeLenient ofStored tokens)

variable {ω : Type} (b : Backend ω) (id : Identity)

/-! ## What is asked for, and what is detached -/

/-- The paths for which the setup of a node asks the back end. -/
def setupPaths (stored : Option Text) (w : ω) : List Bytes :=
  (nodeSetup b.journaled id (.ok stored) ([], w)).2.1.askedPaths

/-- The paths that the teardown of a node passes to the back end. -/
def teardownPaths (stored : Option Text) (w : ω) : List Bytes :=
  (nodeTeardown b.journaled (.ok stored) ([], w)).2.1.detachedPaths

theorem mountable_tokens (s : Text) :
    mountable (tokens s) = (decodeLenient s).1.filter (·.isAbsolute) := by
  rw [mountable, MountList.decodeLenient_eq]

/-- A setup leaves what its questions leave. -/
theorem snd_nodeSetup (stored : Option Text) (w : ω) :
    (nodeSetup b id (.ok stored) w).2 =
      (exchangeAll b id (mountable (tokens (stored.getD []))) w).2 := by
  obtain ⟨landings, w', h⟩ := exists_landed b id (tokens (stored.getD []))
    (fun _ => MountList.semicolon_notMem_of_mem_tokens) w
  rw [h.nodeSetup_eq, h.exchanges]

theorem setupPaths_eq (stored : Option Text) (w : ω) :
    setupPaths b id stored w =
      MountList.paths ((decodeLenient (stored.getD [])).1.filter (·.isAbsolute)) := by
  obtain ⟨events, hevents, hdirectives, rfl⟩ :=
    logs_exchangeAll b id (mountable (tokens (stored.getD []))) ([], w)
  rw [setupPaths, snd_nodeSetup, hevents, List.nil_append, Journal.askedPaths_asked, hdirectives,
    mountable_tokens]

theorem teardownPaths_eq (stored : Option Text) (w : ω) :
    teardownPaths b stored w = (decodeLenient (stored.getD [])).1.paths := by
  obtain ⟨events, hevents, attempts, hpaths, rfl, -⟩ := logs_nodeTeardown b stored ([], w)
  rw [teardownPaths, hevents, List.nil_append, Journal.detachedPaths_detached, hpaths]

/-- What captures have left reads as a list of absolute paths. -/
theorem isAbsolute_of_captured (capacity : Nat) (requests : List (Text × Bytes)) :
    ∀ d ∈ (decodeLenient ((captureAll requests ⟨none, capacity⟩).2.value.getD [])).1,
      d.isAbsolute := by
  obtain ⟨_, hholds⟩ := holds_captureAll capacity requests
  obtain ⟨l, hstored⟩ := exists_ofStored_of_holds hholds
  have hsound := sound_of_ofStored hholds hstored
  cases hvalue : (captureAll requests ⟨none, capacity⟩).2.value with
  | none => exact List.forall_mem_nil _
  | some text =>
    rw [hvalue] at hstored
    rw [Option.getD_some, MountList.decodeLenient_of_decode hstored]
    exact hsound.absolute

/-- **What a teardown of the node reaches.** Whatever is stored, however the back
end answers, and whatever happens between the two, the paths that a teardown
detaches and that start at the root are those for which a setup asks, in the
same order. All that it detaches is among these exactly if every well-formed
directive of the text has an absolute path; and then it detaches just these. It
is so for every text that captures have left. -/
theorem nodeTeardown_reaches :
    (∀ (stored : Option Text) (w w' : ω),
      (teardownPaths b stored w').filter PathName.startsAtRoot = setupPaths b id stored w ∧
      (teardownPaths b stored w' ⊆ setupPaths b id stored w ↔
        ∀ d ∈ (decodeLenient (stored.getD [])).1, d.isAbsolute) ∧
      (teardownPaths b stored w' = setupPaths b id stored w ↔
        ∀ d ∈ (decodeLenient (stored.getD [])).1, d.isAbsolute)) ∧
    ∀ (capacity : Nat) (requests : List (Text × Bytes)) (w w' : ω),
      let stored := (captureAll requests ⟨none, capacity⟩).2.value
      teardownPaths b stored w' = setupPaths b id stored w := by
  have hsubset (stored : Option Text) (w w' : ω) :
      teardownPaths b stored w' ⊆ setupPaths b id stored w ↔
        ∀ d ∈ (decodeLenient (stored.getD [])).1, d.isAbsolute := by
    rw [teardownPaths_eq, setupPaths_eq]
    exact MountList.paths_subset_iff _
  have heq (stored : Option Text) (w w' : ω) :
      teardownPaths b stored w' = setupPaths b id stored w ↔
        ∀ d ∈ (decodeLenient (stored.getD [])).1, d.isAbsolute := by
    constructor
    · intro h
      rw [← hsubset stored w w', h]
      exact List.Subset.refl _
    · intro h
      rw [teardownPaths_eq, setupPaths_eq, List.filter_eq_self.mpr h]
  refine ⟨fun stored w w' => ⟨?_, hsubset stored w w', heq stored w w'⟩, ?_⟩
  · rw [teardownPaths_eq, setupPaths_eq]
    exact MountList.filter_paths _
  · intro capacity requests w w'
    exact (heq _ w w').mpr (isAbsolute_of_captured capacity requests)

/-- A relative path that was put into the text is detached, though the setup
does not ask for it. -/
theorem nodeTeardown_relative :
    ¬∀ (b : Backend Dictation) (id : Identity) (stored : Option Text) (w w' : Dictation),
      teardownPaths b stored w' ⊆ setupPaths b id stored w := by
  intro h
  have hsubset := h Dictation.backend (.resolve none 0 0) (some "b:rel".toList)
    ⟨[], [], [], [], [], 0⟩ ⟨[], [], [], [], [], 0⟩
  rw [teardownPaths_eq, setupPaths_eq] at hsubset
  revert hsubset
  decide

end Hooks
end BucketMount
