import BucketMount.Helper.Mount
import BucketMount.Proofs.Worker.PrivilegeGate

/-!
# What a worker goes through

A worker that is to become a helper passes one stage after the other and stops
at the first one that fails. `Files.Prepares` says what can be found at the mount
path, and `Kernel.WorkerRun` puts the stages together: from one state of the
world to another, with the report on the stage that has failed or none. The
world that is reached is what the stages up to there have made of it, so nothing
else has been done. Every worker has such a run (`Kernel.exists_run_live`), and a
report is all that is in its status pipe afterwards (`Kernel.left_of_run`).
-/

namespace BucketMount

variable {ω : Type}

/-! ## The mount path -/

/-- What is found at the mount path, or made of it, up to the first thing that is
not as it should be. -/
inductive Files.Prepares (files : Files ω) (caller : Credentials) (path : Bytes) (uid mode : Nat) :
    ω → Except Report Unit → ω → Prop
  | uninspected {w w₁ : ω} {e : Errno} (found : files.stat caller path w = (.error e, w₁))
      (present : e ≠ .enoent) :
      files.Prepares caller path uid mode w (.error ⟨.inspectPath, e⟩) w₁
  | created {w w₁ w₂ : ω} (missing : files.stat caller path w = (.error .enoent, w₁))
      (made : files.makeDir caller path (permissionBits mode) w₁ = (.ok (), w₂)) :
      files.Prepares caller path uid mode w (.ok ()) w₂
  | uncreated {w w₁ w₂ : ω} {e : Errno}
      (missing : files.stat caller path w = (.error .enoent, w₁))
      (unmade : files.makeDir caller path (permissionBits mode) w₁ = (.error e, w₂)) :
      files.Prepares caller path uid mode w (.error ⟨.createDir, e⟩) w₂
  | notDirectory {w w₁ : ω} {info : FileInfo} (found : files.stat caller path w = (.ok info, w₁))
      (other : info.isDirectory = false) :
      files.Prepares caller path uid mode w (.error ⟨.violation .notDirectory, .unknown⟩) w₁
  | wrongOwner {w w₁ : ω} {info : FileInfo} (found : files.stat caller path w = (.ok info, w₁))
      (directory : info.isDirectory) (owner : info.owner ≠ uid) :
      files.Prepares caller path uid mode w (.error ⟨.violation .wrongOwner, .unknown⟩) w₁
  | unlisted {w w₁ w₂ : ω} {info : FileInfo} {e : Errno}
      (found : files.stat caller path w = (.ok info, w₁)) (directory : info.isDirectory)
      (owner : info.owner = uid) (listed : files.hasEntries caller path w₁ = (.error e, w₂)) :
      files.Prepares caller path uid mode w (.error ⟨.inspectPath, e⟩) w₂
  | notEmpty {w w₁ w₂ : ω} {info : FileInfo} (found : files.stat caller path w = (.ok info, w₁))
      (directory : info.isDirectory) (owner : info.owner = uid)
      (listed : files.hasEntries caller path w₁ = (.ok true, w₂)) :
      files.Prepares caller path uid mode w (.error ⟨.violation .notEmpty, .unknown⟩) w₂
  | notWritable {w w₁ w₂ w₃ : ω} {info : FileInfo}
      (found : files.stat caller path w = (.ok info, w₁)) (directory : info.isDirectory)
      (owner : info.owner = uid) (listed : files.hasEntries caller path w₁ = (.ok false, w₂))
      (asked : files.canWrite caller path w₂ = (false, w₃)) :
      files.Prepares caller path uid mode w (.error ⟨.violation .notWritable, .unknown⟩) w₃
  | fit {w w₁ w₂ w₃ : ω} {info : FileInfo} (found : files.stat caller path w = (.ok info, w₁))
      (directory : info.isDirectory) (owner : info.owner = uid)
      (listed : files.hasEntries caller path w₁ = (.ok false, w₂))
      (asked : files.canWrite caller path w₂ = (true, w₃)) :
      files.Prepares caller path uid mode w (.ok ()) w₃

section Prepare

variable (files : Files ω) {caller : Credentials} {path : Bytes} {uid mode : Nat} {w w₁ : ω}

theorem Files.prepare_of_error {e : Errno} (found : files.stat caller path w = (.error e, w₁)) :
    files.prepare caller path uid mode w =
      if e = .enoent then
        ((files.makeDir caller path (permissionBits mode) w₁).1.mapError (⟨.createDir, ·⟩),
          (files.makeDir caller path (permissionBits mode) w₁).2)
      else (.error ⟨.inspectPath, e⟩, w₁) := by
  rw [prepare, bind_of_eq found]
  cases e <;> rfl

theorem Files.prepare_of_own {info : FileInfo} (found : files.stat caller path w = (.ok info, w₁))
    (directory : info.isDirectory) (owner : info.owner = uid) :
    files.prepare caller path uid mode w =
      match files.hasEntries caller path w₁ with
      | (.error e, w₂) => (.error ⟨.inspectPath, e⟩, w₂)
      | (.ok true, w₂) => (.error ⟨.violation .notEmpty, .unknown⟩, w₂)
      | (.ok false, w₂) =>
        (if (files.canWrite caller path w₂).1 then .ok ()
          else .error ⟨.violation .notWritable, .unknown⟩, (files.canWrite caller path w₂).2) := by
  rw [prepare, bind_of_eq found]
  simp only [directory, owner, not_true_eq_false, ne_eq, if_false]
  rcases hlisted : files.hasEntries caller path w₁ with ⟨_ | _ | _, w₂⟩
  all_goals
    rw [bind_of_eq hlisted]
    rfl

/-- The check of a mount path comes to what is found there. -/
theorem Files.prepares_prepare (w : ω) :
    files.Prepares caller path uid mode w (files.prepare caller path uid mode w).1
      (files.prepare caller path uid mode w).2 := by
  rcases hfound : files.stat caller path w with ⟨e | info, w₁⟩
  · rw [files.prepare_of_error hfound]
    by_cases hmissing : e = .enoent
    · subst hmissing
      rw [if_pos rfl]
      rcases hmade : files.makeDir caller path (permissionBits mode) w₁ with ⟨e | _, w₂⟩
      · exact .uncreated hfound hmade
      · exact .created hfound hmade
    · rw [if_neg hmissing]
      exact .uninspected hfound hmissing
  by_cases hdir : info.isDirectory
  · by_cases howner : info.owner = uid
    · rw [files.prepare_of_own hfound hdir howner]
      rcases hlisted : files.hasEntries caller path w₁ with ⟨e | _ | _, w₂⟩
      · exact .unlisted hfound hdir howner hlisted
      · dsimp only
        rcases hasked : files.canWrite caller path w₂ with ⟨_ | _, w₃⟩
        · exact .notWritable hfound hdir howner hlisted hasked
        · exact .fit hfound hdir howner hlisted hasked
      · exact .notEmpty hfound hdir howner hlisted
    · have hrun : files.prepare caller path uid mode w =
          (.error ⟨.violation .wrongOwner, .unknown⟩, w₁) := by
        rw [prepare, bind_of_eq hfound]
        simp only [hdir, howner, not_true_eq_false, not_false_eq_true, ne_eq, if_true, if_false]
        rfl
      rw [hrun]
      exact .wrongOwner hfound hdir howner
  · have hrun : files.prepare caller path uid mode w =
        (.error ⟨.violation .notDirectory, .unknown⟩, w₁) := by
      rw [prepare, bind_of_eq hfound]
      exact congrFun (if_pos hdir) w₁
    rw [hrun]
    exact .notDirectory hfound (Bool.eq_false_iff.mpr hdir)

end Prepare

/-! ## From the change of credentials to the helper -/

namespace Kernel

/-- The output of a worker goes where it is to go. -/
inductive Redirected (k : Kernel ω) : Option Pipe → ω → ω → Prop
  | none (w : ω) : k.Redirected none w w
  | some {pipe : Pipe} {w w₁ : ω} (redirected : k.redirect pipe w = (.ok (), w₁)) :
      k.Redirected (some pipe) w w₁

/-- What a worker does on its way to becoming a helper, and the report on the
first stage that fails, if one does. -/
inductive WorkerRun (k : Kernel ω) (id : Identity) (path : Bytes) (mode : Nat)
    (relay : Option Pipe) (args env : List Bytes) : ω → Option Report → ω → Prop
  | notBecome {w : ω} {e : Errno}
      (refused : (Credentials.dropTo k.idRules id (k.credentials w)).1 = .error e) :
      k.WorkerRun id path mode relay args env w (some ⟨.privilegeDrop, e⟩) w
  | notPrepared {w w₁ : ω} {caller : Credentials} {r : Report}
      (become : Credentials.dropTo k.idRules id (k.credentials w) = (.ok (), caller))
      (unprepared : k.Prepares caller path id.uid mode w (.error r) w₁) :
      k.WorkerRun id path mode relay args env w (some r) w₁
  | notRedirected {w w₁ w₂ : ω} {caller : Credentials} {pipe : Pipe} {e : Errno}
      (become : Credentials.dropTo k.idRules id (k.credentials w) = (.ok (), caller))
      (prepared : k.Prepares caller path id.uid mode w (.ok ()) w₁) (captured : relay = some pipe)
      (unredirected : k.redirect pipe w₁ = (.error e, w₂)) :
      k.WorkerRun id path mode relay args env w (some ⟨.redirect, e⟩) w₂
  | notReplaced {w w₁ w₂ w₃ : ω} {caller : Credentials} {e : Errno}
      (become : Credentials.dropTo k.idRules id (k.credentials w) = (.ok (), caller))
      (prepared : k.Prepares caller path id.uid mode w (.ok ()) w₁)
      (redirected : k.Redirected relay w₁ w₂)
      (refused : k.exec caller args env w₂ = (some e, w₃)) :
      k.WorkerRun id path mode relay args env w (some ⟨.exec, e⟩) w₃
  | replaced {w w₁ w₂ w₃ : ω} {caller : Credentials}
      (become : Credentials.dropTo k.idRules id (k.credentials w) = (.ok (), caller))
      (prepared : k.Prepares caller path id.uid mode w (.ok ()) w₁)
      (redirected : k.Redirected relay w₁ w₂)
      (started : k.exec caller args env w₂ = (none, w₃)) :
      k.WorkerRun id path mode relay args env w none w₃

def endingOf : Option Report → Ending
  | some _ => .exits 125
  | none => .runs

/-- The report is sent, if there is one. -/
def reporting (k : Kernel ω) (pipe : Pipe) (failure : Option Report) (w : ω) : ω :=
  match failure with
  | some r => (k.report pipe r w).2
  | none => w

section Run

variable (k : Kernel ω) {id : Identity} {path : Bytes} {mode : Nat} {relay : Option Pipe}
  {args env : List Bytes} {caller : Credentials} {status : Pipe} {w w₁ w₂ : ω}

theorem helperBody_of_unprepared {r : Report}
    (unprepared : k.prepare caller path id.uid mode w = (.error r, w₁)) :
    k.helperBody path id.uid mode relay args env caller status w =
      (.exits workerFailure, (k.report status r w₁).2) := by
  rw [helperBody.eq_def, bind_of_eq unprepared]
  rfl

theorem helperBody_of_unredirected {pipe : Pipe} {e : Errno}
    (prepared : k.prepare caller path id.uid mode w = (.ok (), w₁))
    (unredirected : k.redirect pipe w₁ = (.error e, w₂)) :
    k.helperBody path id.uid mode (some pipe) args env caller status w =
      (.exits workerFailure, (k.report status ⟨.redirect, e⟩ w₂).2) := by
  rw [helperBody, bind_of_eq prepared]
  dsimp only
  rw [bind_of_eq unredirected]
  rfl

theorem helperBody_of_redirected (prepared : k.prepare caller path id.uid mode w = (.ok (), w₁))
    (redirected : k.Redirected relay w₁ w₂) :
    k.helperBody path id.uid mode relay args env caller status w =
      match k.exec caller args env w₂ with
      | (some e, w₃) => (.exits workerFailure, (k.report status ⟨.exec, e⟩ w₃).2)
      | (none, w₃) => (.runs, w₃) := by
  have hbody : k.helperBody path id.uid mode relay args env caller status w =
      helperBody.start k args env caller status w₂ := by
    rw [helperBody.eq_def, bind_of_eq prepared]
    cases redirected with
    | none => rfl
    | some redirected =>
      dsimp only
      rw [bind_of_eq redirected]
  rw [hbody, helperBody.start]
  rcases hexec : k.exec caller args env w₂ with ⟨_ | e, w₃⟩
  · rw [bind_of_eq hexec]
    rfl
  · rw [bind_of_eq hexec]
    rfl

/-- Every worker has such a run, and reports the stage that has failed. -/
theorem exists_run_live (id : Identity) (path : Bytes) (mode : Nat) (relay : Option Pipe)
    (args env : List Bytes) (status : Pipe) (w : ω) :
    ∃ failure reached, k.WorkerRun id path mode relay args env w failure reached ∧
      k.live id (k.helperBody path id.uid mode relay args env) status w =
        (endingOf failure, k.reporting status failure reached) := by
  rcases hdrop : Credentials.dropTo k.idRules id (k.credentials w) with ⟨e | _, caller⟩
  · refine ⟨some ⟨.privilegeDrop, e⟩, w, .notBecome (by rw [hdrop]), ?_⟩
    rw [live_eq, hdrop]
    rfl
  have hlive : k.live id (k.helperBody path id.uid mode relay args env) status w =
      k.helperBody path id.uid mode relay args env caller status w := by
    rw [live_eq, hdrop]
  have hfound : k.Prepares caller path id.uid mode w _ _ := k.toFiles.prepares_prepare w
  rcases hprepared : k.prepare caller path id.uid mode w with ⟨r | _, w₁⟩
  · rw [hprepared] at hfound
    refine ⟨some r, w₁, .notPrepared hdrop hfound, ?_⟩
    rw [hlive, k.helperBody_of_unprepared hprepared]
    rfl
  rw [hprepared] at hfound
  -- with the output where it is to go, it is up to the helper
  have hstart {w₂ : ω} (redirected : k.Redirected relay w₁ w₂) :
      ∃ failure reached, k.WorkerRun id path mode relay args env w failure reached ∧
        k.live id (k.helperBody path id.uid mode relay args env) status w =
          (endingOf failure, k.reporting status failure reached) := by
    rcases hexec : k.exec caller args env w₂ with ⟨_ | e, w₃⟩
    · refine ⟨none, w₃, .replaced hdrop hfound redirected hexec, ?_⟩
      rw [hlive, k.helperBody_of_redirected hprepared redirected, hexec]
      rfl
    · refine ⟨some ⟨.exec, e⟩, w₃, .notReplaced hdrop hfound redirected hexec, ?_⟩
      rw [hlive, k.helperBody_of_redirected hprepared redirected, hexec]
      rfl
  cases relay with
  | none => exact hstart (.none w₁)
  | some pipe =>
    rcases hredirect : k.redirect pipe w₁ with ⟨e | _, w₂⟩
    · refine ⟨some ⟨.redirect, e⟩, w₂, .notRedirected hdrop hfound rfl hredirect, ?_⟩
      rw [hlive, k.helperBody_of_unredirected hprepared hredirect]
      rfl
    · exact hstart (.some hredirect)

end Run

/-! ## What is left of a worker -/

section Left

variable {k : Kernel ω} {id : Identity} {path : Bytes} {mode : Nat} {relay : Option Pipe}
  {args env : List Bytes} {caller : Credentials} {s s' : Traffic × ω} {failure : Option Report}

theorem traffic_of_beside {α : Type} {op : StateM ω α} {a : α}
    (h : (beside op : StateM (Traffic × ω) α) s = (a, s')) : s'.1 = s.1 :=
  (congrArg (·.2.1) h).symm

/-- Nothing that is done to files goes through a pipe. -/
theorem traffic_of_prepares {answer : Except Report Unit}
    (h : k.piped.Prepares caller path id.uid mode s answer s') : s'.1 = s.1 := by
  cases h with
  | uninspected found | notDirectory found | wrongOwner found => exact traffic_of_beside found
  | created missing made | uncreated missing made =>
    exact (traffic_of_beside made).trans (traffic_of_beside missing)
  | unlisted found _ _ listed | notEmpty found _ _ listed =>
    exact (traffic_of_beside listed).trans (traffic_of_beside found)
  | notWritable found _ _ listed asked | fit found _ _ listed asked =>
    exact (traffic_of_beside asked).trans
      ((traffic_of_beside listed).trans (traffic_of_beside found))

theorem traffic_of_redirected (h : k.piped.Redirected relay s s') : s'.1 = s.1 := by
  cases h with
  | none => rfl
  | some redirected => exact traffic_of_beside redirected

/-- Until it reports, a worker leaves the pipes alone. -/
theorem traffic_of_workerRun (h : k.piped.WorkerRun id path mode relay args env s failure s') :
    s'.1 = s.1 := by
  cases h with
  | notBecome => rfl
  | notPrepared become unprepared => exact traffic_of_prepares unprepared
  | notRedirected become prepared captured unredirected =>
    exact (traffic_of_beside unredirected).trans (traffic_of_prepares prepared)
  | notReplaced become prepared redirected refused =>
    exact (traffic_of_beside refused).trans
      ((traffic_of_redirected redirected).trans (traffic_of_prepares prepared))
  | replaced become prepared redirected started =>
    exact (traffic_of_beside started).trans
      ((traffic_of_redirected redirected).trans (traffic_of_prepares prepared))

/-- A worker leaves its report in a pipe that was empty, if it has one, and the
rest of the world as it was. -/
theorem left_of_run (pid : Pid) {status : Pipe} (s : Traffic × ω) (failure : Option Report)
    (hempty : s.1.inside status = []) :
    let left := (k.piped.leave pid (endingOf failure) (k.piped.reporting status failure s)).2
    left.1.inside status = (failure.map Report.encode).getD [] ∧
      left.1.left = s.1.left ++ [(pid, endingOf failure)] ∧
      left.2 = (k.leave pid (endingOf failure) s.2).2 := by
  cases failure with
  | none => exact ⟨hempty, rfl, rfl⟩
  | some r =>
    obtain ⟨hinside, hleft⟩ := k.traffic_of_refused s pid status r hempty
    refine ⟨hinside, hleft, ?_⟩
    obtain ⟨pace, hsend⟩ := k.send_piped status s r.encode
    have hworld : (k.piped.report status r s).2.2 = s.2 := by rw [report, hsend]
    exact congrArg (fun w => (k.leave pid (.exits workerFailure) w).2) hworld

end Left
end Kernel
end BucketMount
