import BucketMount.Hooks.Step
import BucketMount.Proofs.MountList.Lenient
import BucketMount.Proofs.Stateful

/-!
# What a setup does with a text

Each token of the text lands in one place (`Landing`): it is no directive, or
its path is relative, or the back end was asked for it and gave an answer. A
setup asks for exactly the directives with an absolute path, in the order of
the list, and goes on whatever the answers are; its report sorts the landings
(`setup_accounts`).

The state of the back end is any type, so an answer may depend on all that the
back end was asked before; and what a setup leaves is what the questions leave.
-/

namespace BucketMount

/-- A question to a back end, with its answer. -/
structure Exchange where
  directive : Directive
  answer : Except MountError MountOutcome
deriving DecidableEq

/-- Where a token of a text lands in a setup. -/
inductive Landing where
  /-- The token is no directive. -/
  | malformed (token : Text) (error : MountError)
  /-- The path is relative. -/
  | relative (d : Directive)
  /-- The back end was asked. -/
  | asked (x : Exchange)

namespace Landing

/-- The question to the back end, if there was one. -/
def exchange? : Landing → Option Exchange
  | asked x => some x
  | _ => none

/-- The entry under the mounts that were made. -/
def mounted? : Landing → Option Text
  | asked ⟨d, .ok (.mounted _ _)⟩ => some d.token
  | _ => none

/-- The entry under the mounts that were there. -/
def alreadyMounted? : Landing → Option Text
  | asked ⟨d, .ok .alreadyMounted⟩ => some d.token
  | _ => none

/-- The entry under the tokens that are no directives. -/
def malformed? : Landing → Option (Text × MountError)
  | malformed t e => some (t, e)
  | _ => none

/-- The entry under the directives that failed. -/
def refused? : Landing → Option (Text × MountError)
  | relative d => some (d.token, .parse d.token .pathNotAbsolute)
  | asked ⟨d, .error e⟩ => some (d.token, e)
  | _ => none

/-- What the setup itself keeps of a directive. -/
def attempt? : Landing → Option (Directive × Attempt)
  | malformed _ _ => none
  | relative d => some (d, .failed (.parse d.token .pathNotAbsolute))
  | asked ⟨d, answer⟩ => some (d, .ofAnswer answer)

/-- In how many of the three lists of a report a token is found. -/
def places (x : Landing) : Nat :=
  x.mounted?.toList.length + x.alreadyMounted?.toList.length +
    (x.malformed?.toList ++ x.refused?.toList).length

theorem places_eq_one (x : Landing) : x.places = 1 := by
  rcases x with _ | _ | ⟨d, _ | _ | _⟩ <;> rfl

end Landing

/-! ## The report -/

/-- The report that sorts the landings of a text. -/
def SetupReport.ofLandings (landings : List Landing) : SetupReport where
  mounted := landings.filterMap Landing.mounted?
  alreadyMounted := landings.filterMap Landing.alreadyMounted?
  failed := landings.filterMap Landing.malformed? ++ landings.filterMap Landing.refused?

theorem SetupReport.ofAttempts_landings (malformed : List MountError) (landings : List Landing)
    (h : malformed.map (fun e => (label e, e)) = landings.filterMap Landing.malformed?) :
    ofAttempts malformed (landings.filterMap Landing.attempt?) = ofLandings landings := by
  have hmounted : ∀ x : Landing,
      (x.attempt?.filter (·.2.isMounted)).map (·.1.token) = x.mounted? := by
    rintro (_ | _ | ⟨d, _ | _ | _⟩) <;> rfl
  have halready : ∀ x : Landing,
      (x.attempt?.filter (·.2.isAlreadyMounted)).map (·.1.token) = x.alreadyMounted? := by
    rintro (_ | _ | ⟨d, _ | _ | _⟩) <;> rfl
  have hrefused : ∀ x : Landing,
      x.attempt?.bind (fun y => y.2.error?.map (y.1.token, ·)) = x.refused? := by
    rintro (_ | _ | ⟨d, _ | _ | _⟩) <;> rfl
  simp only [ofAttempts, ofLandings, List.filter_filterMap, List.map_filterMap,
    List.filterMap_filterMap, hmounted, halready, hrefused, h]

theorem length_filterMap_cons {α β : Type} (f : α → Option β) (a : α) (as : List α) :
    ((a :: as).filterMap f).length = (f a).toList.length + (as.filterMap f).length := by
  rw [List.filterMap_cons]
  cases f a with
  | none => simp
  | some b => simp [Nat.add_comm]

/-- A report counts each token once. -/
theorem SetupReport.total_ofLandings (landings : List Landing) :
    (ofLandings landings).total = landings.length := by
  unfold total ofLandings
  induction landings with
  | nil => rfl
  | cons x landings ih =>
    have hone := x.places_eq_one
    simp only [Landing.places, List.length_append] at hone
    simp only [length_filterMap_cons, List.length_append, List.length_cons] at ih ⊢
    omega

/-- The result of a setup is an error exactly if something failed. -/
theorem SetupReport.result_eq (r : SetupReport) :
    r.result = if r.failed = [] then .ok () else .error (.setup r.failed.length r.total) := by
  unfold result isSuccess
  simp only [List.isEmpty_iff]

namespace Hooks

open MountList (tokens)

/-- Where a token can land. -/
inductive Lands : Text → Landing → Prop where
  | malformed {t : Text} {e : MountError} (reads : Directive.parse t = .error e) :
      Lands t (.malformed t e)
  | relative {t : Text} {d : Directive} (reads : Directive.parse t = .ok d)
      (path : ¬d.isAbsolute) : Lands t (.relative d)
  | asked {t : Text} {d : Directive} {answer : Except MountError MountOutcome}
      (reads : Directive.parse t = .ok d) (path : d.isAbsolute) : Lands t (.asked ⟨d, answer⟩)

/-- The directives among some tokens that have an absolute path. -/
def mountable (ts : List Text) : MountList :=
  (ts.filterMap Directive.ofToken?).filter (·.isAbsolute)

variable {σ : Type} (backend : Backend σ) (id : Identity)

/-- Asks the back end for the directives, one after the other. -/
def exchangeAll (l : MountList) : StateM σ (List Exchange) :=
  l.mapM fun d => do return ⟨d, ← backend.mount d id⟩

/-! ## One directive more -/

theorem exchangeAll_cons (d : Directive) (l : MountList) (w : σ) :
    exchangeAll backend id (d :: l) w =
      let (answer, w₁) := backend.mount d id w
      let (rest, w₂) := exchangeAll backend id l w₁
      (⟨d, answer⟩ :: rest, w₂) :=
  mapM_cons_run _ d l w

theorem attemptAll_cons (d : Directive) (l : MountList) (w : σ) :
    attemptAll backend id (d :: l) w =
      let (a, w₁) := attempt backend id d w
      let (rest, w₂) := attemptAll backend id l w₁
      ((d, a) :: rest, w₂) :=
  mapM_cons_run _ d l w

theorem attempt_of_isAbsolute {d : Directive} (h : d.isAbsolute) (w : σ) :
    attempt backend id d w =
      let (answer, w') := backend.mount d id w
      (.ofAnswer answer, w') := by
  unfold attempt
  rw [if_pos h]
  rfl

theorem attempt_of_not_isAbsolute {d : Directive} (h : ¬d.isAbsolute) (w : σ) :
    attempt backend id d w = (.failed (.parse d.token .pathNotAbsolute), w) := by
  unfold attempt
  rw [if_neg h]
  rfl

/-! ## Token by token -/

/-- From `w`, the tokens land as told and leave `w'`: the questions are those
that were asked, the attempts of the setup go with them, and each error of the
reader stands under its token. -/
structure Landed (ts : List Text) (w : σ) (landings : List Landing) (w' : σ) : Prop where
  lands : List.Forall₂ Lands ts landings
  exchanges : exchangeAll backend id (mountable ts) w = (landings.filterMap Landing.exchange?, w')
  attempts : attemptAll backend id (ts.filterMap Directive.ofToken?) w =
    (landings.filterMap Landing.attempt?, w')
  malformed : (ts.filterMap Directive.fault?).map (fun e => (SetupReport.label e, e)) =
    landings.filterMap Landing.malformed?

variable {backend id} {t : Text} {ts : List Text} {d : Directive} {w w₁ w' : σ}
variable {landings : List Landing}

theorem label_of_parse_eq_error {e : MountError} (hsemicolon : ';' ∉ t)
    (h : Directive.parse t = .error e) : SetupReport.label e = t := by
  obtain ⟨reason, rfl⟩ := Directive.parse_eq_error hsemicolon h
  rfl

theorem Landed.nil (w : σ) : Landed backend id [] w [] w := ⟨.nil, rfl, rfl, rfl⟩

theorem Landed.cons_malformed {e : MountError} (hsemicolon : ';' ∉ t)
    (h : Directive.parse t = .error e) (rest : Landed backend id ts w landings w') :
    Landed backend id (t :: ts) w (.malformed t e :: landings) w' := by
  have hdirective := Directive.ofToken?_of_error h
  refine ⟨.cons (.malformed h) rest.lands, ?_, ?_, ?_⟩
  · rw [mountable, List.filterMap_cons_none hdirective]
    exact rest.exchanges
  · rw [List.filterMap_cons_none hdirective]
    exact rest.attempts
  · rw [List.filterMap_cons_some (Directive.fault?_of_error h), List.map_cons, rest.malformed,
      label_of_parse_eq_error hsemicolon h]
    rfl

theorem Landed.cons_relative (h : Directive.parse t = .ok d) (hpath : ¬d.isAbsolute)
    (rest : Landed backend id ts w landings w') :
    Landed backend id (t :: ts) w (.relative d :: landings) w' := by
  have hdirective := Directive.ofToken?_of_ok h
  refine ⟨.cons (.relative h hpath) rest.lands, ?_, ?_, ?_⟩
  · rw [mountable, List.filterMap_cons_some hdirective, List.filter_cons_of_neg hpath]
    exact rest.exchanges
  · rw [List.filterMap_cons_some hdirective, attemptAll_cons,
      attempt_of_not_isAbsolute backend id hpath]
    simp only [rest.attempts]
    rfl
  · rw [List.filterMap_cons_none (Directive.fault?_of_ok h)]
    exact rest.malformed

theorem Landed.cons_asked {answer : Except MountError MountOutcome}
    (h : Directive.parse t = .ok d) (hpath : d.isAbsolute)
    (hmount : backend.mount d id w = (answer, w₁))
    (rest : Landed backend id ts w₁ landings w') :
    Landed backend id (t :: ts) w (.asked ⟨d, answer⟩ :: landings) w' := by
  have hdirective := Directive.ofToken?_of_ok h
  have hmountable : mountable (t :: ts) = d :: mountable ts := by
    rw [mountable, List.filterMap_cons_some hdirective, List.filter_cons_of_pos hpath, mountable]
  refine ⟨.cons (.asked h hpath) rest.lands, ?_, ?_, ?_⟩
  · rw [hmountable, exchangeAll_cons, hmount]
    simp only [rest.exchanges]
    rfl
  · rw [List.filterMap_cons_some hdirective, attemptAll_cons,
      attempt_of_isAbsolute backend id hpath, hmount]
    simp only [rest.attempts]
    rfl
  · rw [List.filterMap_cons_none (Directive.fault?_of_ok h)]
    exact rest.malformed

/-- However the back end answers, every token lands. -/
theorem exists_landed (backend : Backend σ) (id : Identity) (ts : List Text)
    (hsemicolon : ∀ t ∈ ts, ';' ∉ t) (w : σ) :
    ∃ landings w', Landed backend id ts w landings w' := by
  induction ts generalizing w with
  | nil => exact ⟨[], w, .nil w⟩
  | cons t ts ih =>
    obtain ⟨ht, hts⟩ := List.forall_mem_cons.mp hsemicolon
    cases h : Directive.parse t with
    | error e =>
      obtain ⟨landings, w', rest⟩ := ih hts w
      exact ⟨_, w', .cons_malformed ht h rest⟩
    | ok d =>
      by_cases hpath : d.isAbsolute
      · cases hmount : backend.mount d id w with
        | mk answer w₁ =>
          obtain ⟨landings, w', rest⟩ := ih hts w₁
          exact ⟨_, w', .cons_asked h hpath hmount rest⟩
      · obtain ⟨landings, w', rest⟩ := ih hts w
        exact ⟨_, w', .cons_relative h hpath rest⟩

/-- Where the tokens of a text land is what a setup reports. -/
theorem Landed.mountAll_eq {stored : Option Text}
    (h : Landed backend id (tokens (stored.getD [])) w landings w') :
    mountAll backend id stored w =
      ((.ofLandings landings, landings.filterMap Landing.attempt?), w') := by
  have hreport := SetupReport.ofAttempts_landings _ _ h.malformed
  unfold mountAll
  rw [MountList.decodeLenient_eq]
  change (let (attempts, w₁) := attemptAll backend id _ w
    ((SetupReport.ofAttempts _ attempts, attempts), w₁)) = _
  rw [h.attempts]
  simp only [hreport]

theorem Landed.nodeSetup_eq {stored : Option Text}
    (h : Landed backend id (tokens (stored.getD [])) w landings w') :
    nodeSetup backend id (.ok stored) w = (.ok (.ofLandings landings), w') := by
  change (let (made, w₁) := mountAll backend id stored w
    (Except.ok made.1, w₁)) = _
  rw [h.mountAll_eq]

theorem Landed.stepSetup_eq {stored : Option Text} (t : Tracker)
    (h : Landed backend id (tokens (stored.getD [])) w landings w') :
    stepSetup backend id (.ok stored) t w =
      ((.ok (.ofLandings landings),
        (recordsOf (landings.filterMap Landing.attempt?)).foldl Tracker.register t), w') := by
  change (let (made, w₁) := mountAll backend id stored w
    ((Except.ok made.1, (recordsOf made.2).foldl Tracker.register t), w₁)) = _
  rw [h.mountAll_eq]

/-- **What a setup does.** Whatever is stored and however the back end answers,
the setup of a node and that of a step ask the back end once for each
well-formed directive with an absolute path, in the order of the list, and for
nothing else. The tokens are what the text is cut into at the semicolons. Each
of them lands in exactly one of the three lists of the report, so the report
counts as many as there are tokens: the malformed tokens come first among what
failed, each under the whole token, and all else stands in the order of the list
under the written form of the directive. The result is an error exactly if
something failed, and says how much of how much. -/
theorem setup_accounts (backend : Backend σ) (id : Identity) (stored : Option Text)
    (t : Tracker) (w : σ) :
    let ts := tokens (stored.getD [])
    Text.Cut (· == ';') (stored.getD []) ts ∧
    ∃ landings report t' w',
      exchangeAll backend id (mountable ts) w = (landings.filterMap Landing.exchange?, w') ∧
      nodeSetup backend id (.ok stored) w = (.ok report, w') ∧
      stepSetup backend id (.ok stored) t w = ((.ok report, t'), w') ∧
      List.Forall₂ Lands ts landings ∧ (∀ x ∈ landings, x.places = 1) ∧
      report.mounted = landings.filterMap Landing.mounted? ∧
      report.alreadyMounted = landings.filterMap Landing.alreadyMounted? ∧
      report.failed =
        landings.filterMap Landing.malformed? ++ landings.filterMap Landing.refused? ∧
      report.total = ts.length ∧
      report.result =
        if report.failed = [] then .ok () else .error (.setup report.failed.length report.total) := by
  intro ts
  obtain ⟨landings, w', h⟩ := exists_landed backend id ts
    (fun _ => MountList.semicolon_notMem_of_mem_tokens) w
  refine ⟨MountList.cut_tokens _, landings, .ofLandings landings, _, w', h.exchanges,
    h.nodeSetup_eq, h.stepSetup_eq t, h.lands, fun x _ => x.places_eq_one, rfl, rfl, rfl, ?_,
    SetupReport.result_eq _⟩
  rw [SetupReport.total_ofLandings, h.lands.length_eq]

end Hooks
end BucketMount
