import BucketMount.Proofs.Credentials
import BucketMount.Proofs.Worker.StatusPipe

/-!
# Nothing is done as the wrong user

A worker does its job as the identity it was started for or not at all
(`privilege_gate`): the job runs after a change of credentials that has
succeeded, with the credentials that the change has led to, and a worker whose
change fails reports that and leaves.
-/

namespace BucketMount
namespace Kernel

variable {ω : Type}

section Spawn

variable (k : Kernel ω) {id : Identity} {w w₁ w₂ : ω} {pipe : Pipe} {pid : Pid}

/-- Without a pipe and a process of its own nothing is done for the job. -/
theorem spawnAs_of_not_forked
    (unstarted : ∀ pipe pid w₁ w₂, k.openPipe w = (.ok pipe, w₁) → k.fork w₁ ≠ (.ok pid, w₂))
    (body other : Credentials → Pipe → StateM ω Ending) :
    k.spawnAs id body w = k.spawnAs id other w := by
  simp only [spawnAs, bind, StateT.bind]
  rcases hopened : k.openPipe w with ⟨_ | pipe, w₁⟩
  · rfl
  · dsimp only [StateT.bind]
    rcases hforked : k.fork w₁ with ⟨_ | pid, w₂⟩
    · rfl
    · exact absurd hforked (unstarted pipe pid w₁ w₂ hopened)

theorem live_eq (body : Credentials → Pipe → StateM ω Ending) :
    k.live id body pipe w =
      match Credentials.dropTo k.idRules id (k.credentials w) with
      | (.ok (), caller) => body caller pipe w
      | (.error e, _) => (.exits workerFailure, (k.report pipe ⟨.privilegeDrop, e⟩ w).2) := by
  change (match Credentials.dropTo k.idRules id (k.credentials w) with
    | (.ok (), caller) => body caller pipe
    | (.error e, _) => do
      k.report pipe ⟨.privilegeDrop, e⟩
      return .exits workerFailure) w = _
  rcases Credentials.dropTo k.idRules id (k.credentials w) with ⟨_ | _, caller⟩ <;> rfl

theorem spawnAs_of_forked (opened : k.openPipe w = (.ok pipe, w₁))
    (forked : k.fork w₁ = (.ok pid, w₂)) (body : Credentials → Pipe → StateM ω Ending) :
    k.spawnAs id body w = (.ok ⟨pid, pipe⟩,
      (k.leave pid (k.live id body pipe w₂).1 (k.live id body pipe w₂).2).2) := by
  simp only [spawnAs, bind, StateT.bind, opened, forked]
  rfl

/-- A worker that becomes the identity does what it was started for. -/
theorem spawnAs_of_admitted {caller : Credentials}
    (opened : k.openPipe w = (.ok pipe, w₁)) (forked : k.fork w₁ = (.ok pid, w₂))
    (changed : Credentials.dropTo k.idRules id (k.credentials w₂) = (.ok (), caller))
    (body : Credentials → Pipe → StateM ω Ending) :
    k.spawnAs id body w =
      (.ok ⟨pid, pipe⟩, (k.leave pid (body caller pipe w₂).1 (body caller pipe w₂).2).2) := by
  rw [k.spawnAs_of_forked opened forked, live_eq, changed]

/-- A worker that cannot become the identity leaves with a report, whatever it
was to do. -/
theorem spawnAs_of_refused {e : Errno}
    (opened : k.openPipe w = (.ok pipe, w₁)) (forked : k.fork w₁ = (.ok pid, w₂))
    (refused : (Credentials.dropTo k.idRules id (k.credentials w₂)).1 = .error e)
    (body : Credentials → Pipe → StateM ω Ending) :
    k.spawnAs id body w = (.ok ⟨pid, pipe⟩,
      (k.leave pid (.exits workerFailure) (k.report pipe ⟨.privilegeDrop, e⟩ w₂).2).2) := by
  obtain ⟨c, hdrop⟩ : ∃ c, Credentials.dropTo k.idRules id (k.credentials w₂) = (.error e, c) :=
    ⟨_, Prod.ext refused rfl⟩
  rw [k.spawnAs_of_forked opened forked, live_eq, hdrop]

end Spawn

/-- What a worker that is refused leaves behind in its pipe and among the
workers that have left. -/
theorem traffic_of_refused (k : Kernel ω) (s : Traffic × ω) (pid : Pid) (pipe : Pipe) (r : Report)
    (hempty : s.1.inside pipe = []) :
    let s' := (k.piped.leave pid (.exits workerFailure) (k.piped.report pipe r s).2).2
    s'.1.inside pipe = r.encode ∧ s'.1.left = s.1.left ++ [(pid, .exits workerFailure)] := by
  obtain ⟨pace, hsend⟩ := k.send_piped pipe s r.encode
  rw [hempty, List.nil_append] at hsend
  have hreport : k.piped.report pipe r s =
      ((), { s.1.holding pipe r.encode with writes := pace }, s.2) := hsend
  rw [hreport]
  exact ⟨Traffic.inside_holding .., rfl⟩

/-- A change that succeeds has put the ids in place, the saved ones and the
groups too where they could be kept, and a process without privileges is left as
it is. The job is done after such a change and with the credentials it has led
to; a worker that is refused reports why, once, and leaves. -/
theorem privilege_gate (k : Kernel ω) (id : Identity)
    (body : Credentials → Pipe → StateM (Traffic × ω) Ending) :
    (∀ (rules : IdRules) (c : Credentials),
      let after := Credentials.dropTo rules id c
      (after.1 = .ok () → after.2.ActsAs id) ∧
      (c.IsPrivileged → after.1 = .ok () →
        after.2.savedUser = id.uid ∧ after.2.groups = id.groups ∧
          (c.realGroup ≠ Credentials.unchanged → after.2.savedGroup = id.gid)) ∧
      (c.IsPrivileged → c.Possible → ∀ c', after = (.ok (), c') ↔
        (rules.Admits id ∧ id.uid ≠ Credentials.unchanged ∧ id.gid ≠ Credentials.unchanged) ∧
          c' = .ofUser id.uid id.gid id.groups) ∧
      (¬c.IsPrivileged → after = (if c.ActsAs id then .ok () else .error .eperm, c))) ∧
    (∀ s : Traffic × ω,
      (∀ pipe pid s₁ s₂, k.piped.openPipe s = (.ok pipe, s₁) →
        k.piped.fork s₁ ≠ (.ok pid, s₂)) →
          ∀ other, k.piped.spawnAs id body s = k.piped.spawnAs id other s) ∧
    ∀ (s s₁ s₂ : Traffic × ω) (pipe : Pipe) (pid : Pid),
      k.piped.openPipe s = (.ok pipe, s₁) → k.piped.fork s₁ = (.ok pid, s₂) →
        (∀ caller, Credentials.dropTo k.idRules id (k.credentials s₂.2) = (.ok (), caller) →
          k.piped.spawnAs id body s = (.ok ⟨pid, pipe⟩,
            (k.piped.leave pid (body caller pipe s₂).1 (body caller pipe s₂).2).2)) ∧
        ∀ e, (Credentials.dropTo k.idRules id (k.credentials s₂.2)).1 = .error e →
          ∃ s', (∀ other, k.piped.spawnAs id other s = (.ok ⟨pid, pipe⟩, s')) ∧
            s'.1.inside pipe = Report.encode ⟨.privilegeDrop, e⟩ ∧
            s'.1.left = s.1.left ++ [(pid, .exits 125)] ∧
            (k.piped.readReport ⟨pid, pipe⟩ s').1 = .ok (some ⟨.privilegeDrop, e⟩) := by
  refine ⟨fun rules c => ⟨?_, ?_, ?_, ?_⟩, ?_, fun s s₁ s₂ pipe pid opened forked => ⟨?_, ?_⟩⟩
  · exact Credentials.actsAs_of_dropTo
  · exact Credentials.saved_of_dropTo
  · exact fun hpriv hpossible c' => hpossible.dropTo_eq_ok_iff hpriv
  · exact Credentials.dropTo_of_not_privileged
  · exact fun s unstarted other => k.piped.spawnAs_of_not_forked unstarted body other
  · intro caller changed
    exact k.piped.spawnAs_of_admitted opened forked changed body
  · intro e refused
    obtain ⟨hempty, hleft⟩ := inside_of_openPipe opened
    have hsame : s₂.1 = s₁.1 := traffic_of_fork forked
    obtain ⟨hinside, hleaves⟩ :=
      k.traffic_of_refused s₂ pid pipe ⟨.privilegeDrop, e⟩ (by rw [hsame, hempty])
    refine ⟨_, k.piped.spawnAs_of_refused opened forked refused, hinside, ?_, ?_⟩
    · rw [hleaves, hsame, hleft]
      rfl
    · have hread := k.statusRead_readReport ⟨pid, pipe⟩
        (k.piped.leave pid (.exits workerFailure)
          (k.piped.report pipe ⟨.privilegeDrop, e⟩ s₂).2).2
      rw [hinside] at hread
      exact hread.eq (.of_encode pid _)

end Kernel

/-- A superuser becomes a job user, a user stays who it is, and nobody becomes
the user whose number leaves ids as they are. -/
theorem Kernel.privilege_gate_nobody :
    let root := Credentials.ofUser 0 0 []
    let user := Credentials.ofUser 1000 100 [100]
    let job : Identity := ⟨1000, 100, none, [100, 27]⟩
    let nobody : Identity := ⟨Credentials.unchanged, 100, none, [100]⟩
    let s : Traffic × Dictation := (.inPieces, ⟨[7], [], [], [], [], 0⟩)
    let s₂ : Traffic × Dictation := (Traffic.inPieces.holding 0 [], ⟨[], [], [], [], [], 0⟩)
    (root.IsPrivileged ∧ root.Possible ∧
      Credentials.dropTo .unrestricted job root = (.ok (), .ofUser 1000 100 [100, 27])) ∧
    (¬user.IsPrivileged ∧ Credentials.dropTo .unrestricted job user = (.ok (), user)) ∧
    Dictation.kernel.piped.openPipe s = (.ok 0, (Traffic.inPieces.holding 0 [], s.2)) ∧
    Dictation.kernel.piped.fork (Traffic.inPieces.holding 0 [], s.2) = (.ok 7, s₂) ∧
    (Credentials.dropTo .unrestricted nobody root).1 = .error .eperm ∧
    ∃ s', (∀ other, Dictation.kernel.piped.spawnAs nobody other s = (.ok ⟨7, 0⟩, s')) ∧
      s'.1.inside 0 = Report.encode ⟨.privilegeDrop, .eperm⟩ ∧
      s'.1.left = [(7, .exits 125)] ∧
      (Dictation.kernel.piped.readReport ⟨7, 0⟩ s').1 = .ok (some ⟨.privilegeDrop, .eperm⟩) := by
  intro root user job nobody s s₂
  have hplain : ¬user.IsPrivileged := by decide
  have hpossible : root.Possible := by constructor <;> decide
  have hadmits : IdRules.unrestricted.Admits job := by constructor <;> decide
  have hrefused : (Credentials.dropTo .unrestricted nobody root).1 = .error .eperm := by decide
  have hjob := privilege_gate Dictation.kernel job fun _ _ => pure (.exits 0)
  have hnobody := privilege_gate Dictation.kernel nobody fun _ _ => pure (.exits 0)
  have hroot : Credentials.dropTo .unrestricted job root = (.ok (), .ofUser 1000 100 [100, 27]) :=
    ((hjob.1 .unrestricted root).2.2.1 rfl hpossible _).mpr
      ⟨⟨hadmits, by decide, by decide⟩, rfl⟩
  have huser : Credentials.dropTo .unrestricted job user = (.ok (), user) :=
    (hjob.1 .unrestricted user).2.2.2 hplain
  obtain ⟨s', hspawn, hinside, hleft, hread⟩ :=
    (hnobody.2.2 s _ s₂ 0 7 rfl rfl).2 .eperm hrefused
  exact ⟨⟨rfl, hpossible, hroot⟩, ⟨hplain, huser⟩, rfl, rfl, hrefused,
    s', hspawn, hinside, hleft, hread⟩

end BucketMount
