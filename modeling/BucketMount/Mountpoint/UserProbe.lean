import BucketMount.Mountpoint.Probe
import BucketMount.Process.Readiness
import BucketMount.Worker.Basic

/-!
# Whether a path is a mountpoint for the job user

Only a worker that has become the job user sees what the job will see, so it is asked. If it cannot answer, the path
does not count as a mountpoint.
-/

namespace BucketMount.Kernel

variable {ω : Type} (k : Kernel ω)

/-- Whether a path is a mountpoint as the job user sees it. -/
def isMountedAs (id : Identity) (path : Bytes) : StateM ω Bool := do
  if Environment.nul ∈ path then return false
  let body (caller : Credentials) (_ : Pipe) : StateM ω Ending := do
    return .exits (if ← k.isMounted caller path then 0 else 1)
  match ← k.spawnAs id body with
  | .error _ => return false
  | .ok worker =>
    match ← k.wait worker with
    | .ok (.exited 0) => return true
    | _ => return false

theorem monotone_isMounted (caller : Credentials) (path : Bytes) :
    k.Monotone (k.isMounted caller path) := by
  refine .bind (k.monotone_stat _ _) fun answer => ?_
  cases answer with
  | ok s => exact .bind (k.monotone_stat _ _) fun _ => .pure _
  | error e => cases e <;> first | exact .pure _ | exact .bind (k.monotone_stat _ _) fun _ => .pure _

theorem monotone_send (pipe : Pipe) (bytes : Bytes) : k.Monotone (k.send pipe bytes) := by
  intro w
  fun_induction k.send pipe bytes w with
  | case1 w => exact Nat.le_refl _
  | case2 w b rest w' h =>
    have := k.monotone_write pipe (b :: rest) w
    rwa [h] at this
  | case3 w b rest n w' h ih =>
    have := k.monotone_write pipe (b :: rest) w
    rw [h] at this
    exact Nat.le_trans this ih
  | case4 w b rest w' h ih =>
    have := k.monotone_write pipe (b :: rest) w
    rw [h] at this
    exact Nat.le_trans this ih
  | case5 w b rest e w' h he =>
    have := k.monotone_write pipe (b :: rest) w
    rwa [h] at this

theorem monotone_awaitEnd (pid : Pid) : k.Monotone (k.awaitEnd pid) := by
  intro w
  have step := k.monotone_await pid
  fun_induction k.awaitEnd pid w with
  | case1 w status w' h hs => simpa [h] using step w
  | case2 w status w' h hs ih => exact Nat.le_trans (by simpa [h] using step w) ih
  | case3 w w' h ih => exact Nat.le_trans (by simpa [h] using step w) ih
  | case4 w e w' h he => simpa [h] using step w

theorem monotone_live {id : Identity} {body : Credentials → Pipe → StateM ω Ending}
    (monotone_body : ∀ caller pipe, k.Monotone (body caller pipe)) (pipe : Pipe) :
    k.Monotone (k.live id body pipe) := by
  refine .bind .get fun w => ?_
  split
  · exact monotone_body _ _
  · exact .bind (k.monotone_send _ _) fun _ => .pure _

theorem monotone_spawnAs {id : Identity} {body : Credentials → Pipe → StateM ω Ending}
    (monotone_body : ∀ caller pipe, k.Monotone (body caller pipe)) : k.Monotone (k.spawnAs id body) := by
  refine .bind k.monotone_openPipe fun opened => ?_
  cases opened with
  | error e => exact .pure _
  | ok pipe =>
    refine .bind k.monotone_fork fun forked => ?_
    cases forked with
    | error e => exact .pure _
    | ok pid =>
      exact .bind (k.monotone_live monotone_body _) fun _ => .bind (k.monotone_leave _ _) fun _ => .pure _

theorem monotone_isMountedAs (id : Identity) (path : Bytes) : k.Monotone (k.isMountedAs id path) := by
  unfold isMountedAs
  split
  · exact .pure _
  · refine .bind (k.monotone_spawnAs fun _ _ => .bind (k.monotone_isMounted _ _) fun _ => .pure _)
      fun spawned => ?_
    cases spawned with
    | error e => exact .pure _
    | ok worker =>
      refine .bind (k.monotone_awaitEnd _) fun ended => ?_
      split <;> exact .pure _

def userProbe (id : Identity) (path : Bytes) : Probe k.toClock :=
  ⟨k.isMountedAs id path, k.monotone_isMountedAs id path⟩

end BucketMount.Kernel
