import BucketMount.Proofs.Hooks.CaptureRun
import BucketMount.Proofs.Hooks.MountedSet

/-!
# The life of a job's mounts

The captures of a job leave a text (`captureAll`), the setup of a node mounts
what the text asks for, and its teardown detaches that. Captures read strictly
and the node reads leniently, but of a text that captures have left both read
the same list: the one that was answered last. So nothing of it is malformed or
relative, and setup and teardown go through that list and no other
(`job_life`).
-/

namespace BucketMount

namespace Hooks

open MountList (decode encode tokens)

variable {ω : Type} {text : Text} {l : MountList}

/-- Of a text with absolute paths only, everything can be mounted. -/
theorem mountable_of_decode (hread : decode text = .ok l) (habsolute : ∀ d ∈ l, d.isAbsolute) :
    mountable (tokens text) = l := by
  have hlenient := MountList.decodeLenient_of_decode hread
  rw [MountList.decodeLenient_eq] at hlenient
  rw [mountable, (Prod.mk.inj hlenient).1]
  exact List.filter_eq_self.mpr habsolute

/-- A directive with an absolute path lands nowhere but at the back end. -/
theorem landings_of_read {ts : List Text} {landings : List Landing}
    (hread : List.Forall₂ (fun t d => Directive.parse t = .ok d) ts l)
    (habsolute : ∀ d ∈ l, d.isAbsolute) (hlands : List.Forall₂ Lands ts landings) :
    landings = (landings.filterMap Landing.exchange?).map .asked := by
  induction hread generalizing landings with
  | nil =>
    cases hlands
    rfl
  | @cons t d ts l hparse hrest ih =>
    obtain ⟨hd, hl⟩ := List.forall_mem_cons.mp habsolute
    cases hlands with
    | cons hx hxs =>
      have hlater := ih hl hxs
      cases hx with
      | malformed reads => cases reads.symm.trans hparse
      | relative reads hpath =>
        cases reads.symm.trans hparse
        exact absurd hd hpath
      | asked => exact congrArg (_ :: ·) hlater

/-- A setup reports nothing but the answers to its questions, which are the
directives of the text. -/
theorem nodeSetup_of_decode (b : Backend ω) (id : Identity) (hread : decode text = .ok l)
    (habsolute : ∀ d ∈ l, d.isAbsolute) (w : ω) :
    nodeSetup b id (.ok (some text)) w =
      let after := exchangeAll b id l w
      (.ok (.ofLandings (after.1.map .asked)), after.2) := by
  obtain ⟨landings, w', h⟩ := exists_landed b id (tokens text)
    (fun _ => MountList.semicolon_notMem_of_mem_tokens) w
  have hexchanges := h.exchanges
  rw [mountable_of_decode hread habsolute] at hexchanges
  have hasked := landings_of_read (mapM_eq_ok_iff.mp hread) habsolute h.lands
  have hsetup : nodeSetup b id (.ok (some text)) w = (.ok (.ofLandings landings), w') :=
    h.nodeSetup_eq
  rw [hsetup, hexchanges]
  dsimp only
  rw [← hasked]

theorem load_captureAll {capacity : Nat} {requests : List (Text × Bytes)}
    (granted : lastGranted (captureAll requests ⟨none, capacity⟩).1 = some l) :
    Transport.memory.load (captureAll requests ⟨none, capacity⟩).2 = .ok (some (encode l)) ∧
      decode (encode l) = .ok l ∧ ∀ d ∈ l, d.isAbsolute := by
  obtain ⟨_, hholds⟩ := holds_captureAll capacity requests
  rw [granted] at hholds
  have hkeeps : (captureAll requests ⟨none, capacity⟩).2.Keeps l := hholds
  exact ⟨congrArg Except.ok hkeeps.value, MountList.decode_encode_iff.mpr hkeeps.sound.encodable,
    hkeeps.sound.absolute⟩

/-- **The life of a job's mounts.** Let `l` be the list that was answered by
the last capture that was granted, of any captures into a slot that was empty.
However the back end answers, the setup of a node asks it for the directives of
`l` in order and reports nothing but its answers, and the teardown of a node
detaches the paths of `l` in order, whatever the answers are, and counts those
that are errors. If the back end keeps a set of mounted places, then after both
what was mounted before is still there without the places of `l` that are not
stuck, and so is what the setup has mounted and is stuck; a second teardown
changes nothing. -/
theorem job_life (capacity : Nat) (requests : List (Text × Bytes)) (b : Backend ω) (id : Identity)
    (granted : lastGranted (captureAll requests ⟨none, capacity⟩).1 = some l) :
    let stored := Transport.memory.load (captureAll requests ⟨none, capacity⟩).2
    (∀ s : Journal × ω, ∃ xs : List Exchange,
      let setup := nodeSetup b.journaled id stored s
      xs.map Exchange.directive = l ∧
      setup.1 = .ok (.ofLandings (xs.map .asked)) ∧ setup.2.1 = s.1 ++ xs.map .asked ∧
      ∀ {κ : Type} {place : Bytes → κ} {mounted : ω → Set κ} {broken stuck : Set κ},
        b.KeepsSet place mounted broken stuck →
          let torn := (nodeTeardown b.journaled stored setup.2).2
          placesOf place (freshPaths xs) = (placesOf place l.paths \ broken) \ mounted s.2 ∧
          mounted torn.2 = (mounted s.2 \ (placesOf place l.paths \ stuck)) ∪
            (placesOf place (freshPaths xs) ∩ stuck) ∧
          mounted (nodeTeardown b.journaled stored torn).2.2 = mounted torn.2) ∧
    ∀ s : Journal × ω, ∃ attempts : List (Bytes × Except MountError Unit),
      let teardown := nodeTeardown b.journaled stored s
      attempts.map Prod.fst = l.paths ∧
      teardown.1 = .ok (attempts.filter fun (_, answer) => !answer.isOk).length ∧
      teardown.2.1 = s.1 ++ attempts.map fun (path, answer) => .detached path answer := by
  obtain ⟨hload, hread, habsolute⟩ := load_captureAll granted
  dsimp only
  rw [hload]
  have hlist : (MountList.decodeLenient (encode l)).1 = l := by
    rw [MountList.decodeLenient_of_decode hread]
  constructor
  · intro s
    obtain ⟨_, hasked, hdirectives, rfl⟩ := logs_exchangeAll b id l s
    refine ⟨(exchangeAll b.journaled id l s).1, hdirectives, ?_⟩
    rw [nodeSetup_of_decode b.journaled id hread habsolute s]
    refine ⟨rfl, hasked, fun h => ?_⟩
    obtain ⟨hset, hfresh⟩ := h.journaled.exchangeAll id l s
    have htorn (s : Journal × ω) := h.journaled.nodeTeardown (some (encode l)) s
    simp only [Option.getD_some, hlist] at htorn
    refine ⟨hfresh, ?_, ?_⟩
    · rw [htorn, hset, hfresh]
      grind
    · rw [htorn, htorn]
      grind
  · intro s
    obtain ⟨_, hjournal, attempts, hpaths, rfl, hanswer⟩ := logs_nodeTeardown b (some (encode l)) s
    rw [Option.getD_some, hlist] at hpaths
    exact ⟨attempts, hpaths, hanswer, hjournal⟩

/-- After two captures a second teardown changes nothing, though one of the
paths cannot be detached. -/
theorem job_life_stuck :
    let requests := [("a:/x".toList, []), ("/s:f".toList, [])]
    let b := RehearsalPlan.faulty.backend
    ∃ l : MountList, lastGranted (captureAll requests ⟨none, 16⟩).1 = some l ∧
      l.map Directive.token = ["a:/x".toList, "/s:f".toList] ∧
      ∀ (id : Identity) (s : Journal × Rehearsal × Dictation),
        let stored := Transport.memory.load (captureAll requests ⟨none, 16⟩).2
        let torn := (nodeTeardown b.journaled stored (nodeSetup b.journaled id stored s).2).2
        Rehearsal.paths (nodeTeardown b.journaled stored torn).2.2 = Rehearsal.paths torn.2 := by
  intro requests b
  have htokens :
      (lastGranted (captureAll [("a:/x".toList, []), ("/s:f".toList, [])] ⟨none, 16⟩).1).map
        (List.map Directive.token) = some ["a:/x".toList, "/s:f".toList] := by
    rfl
  obtain ⟨l, granted, htokens⟩ := Option.map_eq_some_iff.mp htokens
  refine ⟨l, granted, htokens, fun id s => ?_⟩
  obtain ⟨hsetup, _⟩ := job_life 16 requests b id granted
  obtain ⟨xs, -, -, -, hsets⟩ := hsetup s
  exact (hsets RehearsalPlan.faulty.keepsSet).2.2

end Hooks
end BucketMount
