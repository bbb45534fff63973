import BucketMount.Proofs.Process.MountCleanup
import BucketMount.Proofs.Worker.Stages

/-!
# The first stage that fails decides

What becomes of a mount whose worker has been started (`Kernel.Launch`) depends
on the first stage of the worker that fails: its report is all that reaches the
program, and the error is the one that the report stands for (`Diagnosis`). If no
stage fails, it is the wait for the mountpoint that decides
(`first_failure_decides`).
-/

namespace BucketMount

variable {ω : Type}

/-- The error that a mount comes to when a stage of its worker has failed. -/
inductive Diagnosis (c : Config) (id : Identity) (d : Directive) : Report → MountError → Prop
  | privilege (e : Errno) :
      Diagnosis c id d ⟨.privilegeDrop, e⟩ (.privilege (.switch id.uid id.gid e))
  | inspect (e : Errno) : Diagnosis c id d ⟨.inspectPath, e⟩ (.io (.inspect d.path e))
  | create (e : Errno) : Diagnosis c id d ⟨.createDir, e⟩ (.io (.create d.path e))
  | validation (v : PathViolation) (e : Errno) :
      Diagnosis c id d ⟨.violation v, e⟩ (.validation d.path v)
  | redirect (e : Errno) : Diagnosis c id d ⟨.redirect, e⟩ (.spawn (.redirect e))
  | exec (e : Errno) : Diagnosis c id d ⟨.exec, e⟩ (.exec (.helper c.helperBinary e))

/-- What the end of the wait for a mountpoint means for the mount. -/
def readinessOutcome (c : Config) (d : Directive) (helper : Pid) (relay : Option Pid) :
    Except MountError Readiness → Except MountError MountOutcome
  | .error e => .error e
  | .ok .ready => .ok (.mounted helper relay)
  | .ok (.exitedEarly status) => .error (.helperExited d.path (.status helper status))
  | .ok .timedOut => .error (.timeout d.path c.readinessTimeoutMs)

theorem Helper.checkStrings_of_passable {strings : List Bytes}
    (h : ∀ string ∈ strings, Environment.nul ∉ string) : checkStrings strings = .ok () := by
  have hnone : strings.find? (Environment.nul ∈ ·) = none := by simpa using h
  rw [checkStrings, hnone]

namespace Kernel

/-- A mount that gets as far as its worker: the path does not count as mounted,
all that the helper is to be told can be passed on, and there are a pipe and a
process for the worker. The states are those after each part. -/
structure Launch (k : Kernel ω) (c : Config) (d : Directive) (id : Identity) (w : ω) where
  (probed relayed opened forked : ω)
  answer : Except MountError (Option (Pid × Pipe))
  worker : Worker
  isMountedAs_eq : k.isMountedAs id (Text.toUtf8 d.path) w = (false, probed)
  args_passable : ∀ arg ∈ (Helper.argv c id d).map Text.toUtf8, Environment.nul ∉ arg
  env_passable : ∀ entry ∈ Helper.environment (k.environment probed) id, Environment.nul ∉ entry
  startRelay_eq : k.startRelay c.logRelayCommand probed = (answer, relayed)
  openPipe_eq : k.openPipe relayed = (.ok worker.status, opened)
  fork_eq : k.fork opened = (.ok worker.pid, forked)

namespace Launch

variable {k : Kernel ω} {c : Config} {d : Directive} {id : Identity} {w : ω}

/-- The reader of the helper's output; if it cannot be started there is none. -/
def relay (launch : k.Launch c d id w) : Option (Pid × Pipe) := launch.answer.toOption.join

/-- The stages of the worker. -/
def Run (launch : k.Launch c d id w) (failure : Option Report) (reached : ω) : Prop :=
  k.WorkerRun id (Text.toUtf8 d.path) c.mountDirMode (launch.relay.map Prod.snd)
    ((Helper.argv c id d).map Text.toUtf8) (Helper.environment (k.environment launch.probed) id)
    launch.forked failure reached

/-- What the worker does. -/
def body (launch : k.Launch c d id w) : Credentials → Pipe → StateM ω Ending :=
  k.helperBody (Text.toUtf8 d.path) id.uid c.mountDirMode (launch.relay.map Prod.snd)
    ((Helper.argv c id d).map Text.toUtf8) (Helper.environment (k.environment launch.probed) id)

/-- The program keeps no writing end of the pipe to the reader. -/
def closed (launch : k.Launch c d id w) (left : ω) : ω :=
  match launch.relay with
  | some (_, pipe) => (k.closeWriter pipe left).2
  | none => left

end Launch

section Mount

variable (k : Kernel ω) {c : Config} {d : Directive} {id : Identity} {w w' : ω}

/-- A mount is over when the path is found mounted. -/
theorem mount_of_mounted (mounted : k.isMountedAs id (Text.toUtf8 d.path) w = (true, w')) :
    k.mount c d id w = (.ok .alreadyMounted, w') := by
  rw [mount, bind_of_eq mounted]
  rfl

theorem mount_of_unmounted (unmounted : k.isMountedAs id (Text.toUtf8 d.path) w = (false, w'))
    (args : ∀ arg ∈ (Helper.argv c id d).map Text.toUtf8, Environment.nul ∉ arg)
    (env : ∀ entry ∈ Helper.environment (k.environment w') id, Environment.nul ∉ entry) :
    k.mount c d id w = k.startHelper c id d ((Helper.argv c id d).map Text.toUtf8)
      (Helper.environment (k.environment w') id) w' := by
  rw [mount, bind_of_eq unmounted, if_neg Bool.false_ne_true, bind_get]
  simp only [Helper.checkStrings_of_passable args, Helper.checkStrings_of_passable env]

theorem followWorker_of_report {worker : Worker} {relay : Option (Pid × Pipe)} {r : Report}
    (told : k.readReport worker w = (.ok (some r), w')) :
    (k.followWorker c id d worker relay w).1 = .error (errorOfReport c id d r) := by
  rw [followWorker, bind_of_eq told]
  dsimp only
  rw [bind_of_eq Prod.mk.eta.symm]
  exact fst_bind_pure

theorem followWorker_of_silence {worker : Worker} {relay : Option (Pid × Pipe)}
    (told : k.readReport worker w = (.ok none, w')) :
    k.followWorker c id d worker relay w = k.awaitMount c id d worker.pid relay w' := by
  rw [followWorker, bind_of_eq told]

theorem awaitMount_of_awaitReady {helper : Pid} (relay : Option (Pid × Pipe))
    {result : Except MountError Readiness}
    (awaited : k.awaitReady helper (milliseconds c.pollIntervalMs)
      (k.now w + milliseconds c.readinessTimeoutMs) (k.userProbe id (Text.toUtf8 d.path)) w =
        (result, w')) :
    (k.awaitMount c id d helper relay w).1 =
      readinessOutcome c d helper (relay.map Prod.fst) result := by
  rw [awaitMount, bind_get, bind_of_eq awaited]
  rcases result with _ | _ | status | _
  · rfl
  · rfl
  · exact fst_bind_pure
  · dsimp only
    rw [bind_of_eq Prod.mk.eta.symm]
    exact fst_bind_pure

/-- A mount that gets as far as its worker follows it. -/
theorem mount_of_launch (launch : k.Launch c d id w) :
    ∃ failure reached, launch.Run failure reached ∧
      k.mount c d id w = k.followWorker c id d launch.worker launch.relay
        (launch.closed (k.leave launch.worker.pid (endingOf failure)
          (k.reporting launch.worker.status failure reached)).2) := by
  obtain ⟨failure, reached, hrun, hlive⟩ :
      ∃ failure reached, launch.Run failure reached ∧
        k.live id launch.body launch.worker.status launch.forked =
          (endingOf failure, k.reporting launch.worker.status failure reached) :=
    k.exists_run_live ..
  refine ⟨failure, reached, hrun, ?_⟩
  -- every answer up to the fork is laid down by the launch
  have hspawn : k.spawnAs id launch.body launch.relayed =
      (.ok launch.worker, (k.leave launch.worker.pid (endingOf failure)
        (k.reporting launch.worker.status failure reached)).2) := by
    rw [k.spawnAs_of_forked launch.openPipe_eq launch.fork_eq, hlive]
  rw [k.mount_of_unmounted launch.isMountedAs_eq launch.args_passable launch.env_passable]
  have hrelay : launch.answer.toOption.join = launch.relay := rfl
  rw [Launch.body] at hspawn
  rw [startHelper, bind_of_eq launch.startRelay_eq, hrelay]
  dsimp only
  rw [bind_of_eq hspawn]
  rcases hreader : launch.relay with _ | ⟨reader, pipe⟩
  · simp only [Launch.closed, hreader]
  · simp only [Launch.closed, hreader]
    rfl

theorem diagnosis_errorOfReport (r : Report) : Diagnosis c id d r (errorOfReport c id d r) := by
  obtain ⟨stage, e⟩ := r
  cases stage with
  | privilegeDrop => exact .privilege e
  | inspectPath => exact .inspect e
  | createDir => exact .create e
  | violation v => exact .validation v e
  | redirect => exact .redirect e
  | exec => exact .exec e

end Mount

/-! ## With pipes that carry what is written to them -/

section Piped

variable {k : Kernel ω} {c : Config} {d : Directive} {id : Identity} {s : Traffic × ω}

namespace Launch

theorem traffic_closed (launch : k.piped.Launch c d id s) (left : Traffic × ω) :
    (launch.closed left).1 = left.1 := by
  unfold closed
  split <;> rfl

/-- What becomes of a mount whose worker has been started. -/
structure Decided (launch : k.piped.Launch c d id s) (failure : Option Report)
    (reached left told : Traffic × ω) : Prop where
  /-- The stages up to the first one that fails are all that the worker does. -/
  run : launch.Run failure reached
  /-- The worker leaves with code 125 if a stage has failed. -/
  left_eq : left.1.left = launch.relayed.1.left ++ [(launch.worker.pid, endingOf failure)] ∧
    left.2 = (k.leave launch.worker.pid (endingOf failure) reached.2).2
  /-- One report is on its way if a stage has failed, and none otherwise. -/
  inside_eq : left.1.inside launch.worker.status = (failure.map Report.encode).getD []
  mount_eq : k.piped.mount c d id s =
    k.piped.followWorker c id d launch.worker launch.relay (launch.closed left)
  /-- The program is told of the stage that has failed, or that there is none. -/
  readReport_eq : k.piped.readReport launch.worker (launch.closed left) = (.ok failure, told)
  /-- The error is that of the stage. -/
  failed : ∀ r, failure = some r →
    ∃ e, Diagnosis c id d r e ∧ (k.piped.mount c d id s).1 = .error e
  /-- The wait for the mountpoint decides. -/
  started : failure = none → (k.piped.mount c d id s).1 =
    readinessOutcome c d launch.worker.pid (launch.relay.map Prod.fst)
      (k.piped.awaitReady launch.worker.pid (milliseconds c.pollIntervalMs)
        (k.piped.now told + milliseconds c.readinessTimeoutMs)
        (k.piped.userProbe id (Text.toUtf8 d.path)) told).1

theorem exists_decided (launch : k.piped.Launch c d id s) :
    ∃ failure reached left told, launch.Decided failure reached left told := by
  obtain ⟨failure, reached, hrun, hmount⟩ := k.piped.mount_of_launch launch
  have hreached : reached.1 = launch.opened.1 :=
    (traffic_of_workerRun hrun).trans (traffic_of_fork launch.fork_eq)
  obtain ⟨hempty, hleft⟩ := inside_of_openPipe launch.openPipe_eq
  obtain ⟨hinside, hleaves, hworld⟩ := left_of_run launch.worker.pid reached failure
    (by rw [hreached, hempty])
  rw [hreached, hleft] at hleaves
  generalize (k.piped.leave launch.worker.pid (endingOf failure)
    (k.piped.reporting launch.worker.status failure reached)).2 = left
    at hmount hinside hleaves hworld
  have hread : (k.piped.readReport launch.worker (launch.closed left)).1 = .ok failure := by
    have hstatus := k.statusRead_readReport launch.worker (launch.closed left)
    rw [launch.traffic_closed, hinside] at hstatus
    cases failure with
    | none => exact hstatus.eq .silent
    | some r => exact hstatus.eq (.of_encode _ r)
  have htold : k.piped.readReport launch.worker (launch.closed left) =
      (.ok failure, (k.piped.readReport launch.worker (launch.closed left)).2) :=
    Prod.ext hread rfl
  refine ⟨failure, reached, left, _, hrun, ⟨hleaves, hworld⟩, hinside, hmount, htold, ?_, ?_⟩
  · rintro r rfl
    refine ⟨errorOfReport c id d r, diagnosis_errorOfReport r, ?_⟩
    rw [hmount, k.piped.followWorker_of_report htold]
  · rintro rfl
    rw [hmount, k.piped.followWorker_of_silence htold]
    exact k.piped.awaitMount_of_awaitReady launch.relay Prod.mk.eta.symm

end Launch

/-- A path that is found mounted is left alone. Of a mount whose worker has been
started the first stage that fails decides, and if none does, the wait for the
mountpoint. -/
theorem first_failure_decides (k : Kernel ω) (c : Config) (d : Directive) (id : Identity)
    (s : Traffic × ω) :
    (∀ s', k.piped.isMountedAs id (Text.toUtf8 d.path) s = (true, s') →
      k.piped.mount c d id s = (.ok .alreadyMounted, s')) ∧
    ∀ launch : k.piped.Launch c d id s,
      ∃ failure reached left told, launch.Decided failure reached left told :=
  ⟨fun _ mounted => k.piped.mount_of_mounted mounted, Launch.exists_decided⟩

end Piped
end Kernel

/-! ## A helper that is not there -/

namespace Dictation

/-- A system on which no helper can be run. -/
def withoutHelper : Kernel Dictation :=
  { kernel with exec := fun _ _ _ => pure (some .enoent) }

/-- The path is asked for by process 7, the output is read by process 8, and the
worker is process 9. -/
theorem exists_launch_withoutHelper :
    ∃ launch : withoutHelper.piped.Launch .standard .everything ⟨0, 0, none, []⟩
      (.inPieces, ⟨[7, 8, 9], [.exited 1, .exited 125, .exited 0], [], [], [], 0⟩),
      launch.worker = ⟨9, 0⟩ :=
  ⟨{  probed := _
      relayed := _
      opened := _
      forked := _
      answer := .ok (some (8, 0))
      worker := ⟨9, 0⟩
      isMountedAs_eq := Prod.ext (by decide +kernel) rfl
      args_passable := by decide +kernel
      env_passable := nofun
      startRelay_eq := Prod.ext (by decide +kernel) rfl
      openPipe_eq := Prod.ext rfl rfl
      fork_eq := Prod.ext (by decide +kernel) rfl }, rfl⟩

end Dictation

theorem Kernel.first_failure_decides_withoutHelper :
    let k := Dictation.withoutHelper
    let mounted : Traffic × Dictation := (.inPieces, ⟨[7], [.exited 0], [], [], [], 0⟩)
    let missing : Traffic × Dictation :=
      (.inPieces, ⟨[7, 8, 9], [.exited 1, .exited 125, .exited 0], [], [], [], 0⟩)
    (∃ s', k.piped.isMountedAs ⟨0, 0, none, []⟩ (Text.toUtf8 "/m".toList) mounted = (true, s') ∧
      k.piped.mount .standard .everything ⟨0, 0, none, []⟩ mounted = (.ok .alreadyMounted, s')) ∧
    (∃ launch : k.piped.Launch .standard .everything ⟨0, 0, none, []⟩ missing,
      launch.worker = ⟨9, 0⟩ ∧
        ∃ failure reached left told, launch.Decided failure reached left told) ∧
    (k.piped.mount .standard .everything ⟨0, 0, none, []⟩ missing).1 =
      .error (.exec (.helper "gcsfuse".toList .enoent)) := by
  intro k mounted missing
  have hmounted := first_failure_decides k .standard .everything ⟨0, 0, none, []⟩ mounted
  have hmissing := first_failure_decides k .standard .everything ⟨0, 0, none, []⟩ missing
  obtain ⟨launch, hworker⟩ := Dictation.exists_launch_withoutHelper
  have hprobe : k.piped.isMountedAs ⟨0, 0, none, []⟩ (Text.toUtf8 "/m".toList) mounted =
      (true, (k.piped.isMountedAs ⟨0, 0, none, []⟩ (Text.toUtf8 "/m".toList) mounted).2) :=
    Prod.ext (by decide +kernel) rfl
  have hanswer : (k.piped.mount .standard .everything ⟨0, 0, none, []⟩ missing).1 =
      .error (.exec (.helper "gcsfuse".toList .enoent)) := by
    simp only [mount, startHelper, spawnAs, live, helperBody, helperBody.start, helperBody.failed,
      report, followWorker, readReport]
    rw [send_eq_within 20, fill_eq_within 20]
    decide +kernel
  exact ⟨⟨_, hprobe, hmounted.1 _ hprobe⟩, ⟨launch, hworker, hmissing.2 launch⟩, hanswer⟩

end BucketMount
