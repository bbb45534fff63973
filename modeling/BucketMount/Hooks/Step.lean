import BucketMount.Hooks.Setup
import BucketMount.Tracker

/-!
# Mounts for one step, and teardown

A step mounts what the node setup did not and remembers it; afterwards it undoes exactly that. The teardown of a node
detaches every directive of the job and only counts what fails.
-/

namespace BucketMount.Hooks

variable {σ : Type} (backend : Backend σ)

def recordsOf (attempts : List (Directive × Attempt)) : List MountRecord :=
  attempts.filterMap fun (d, a) =>
    match a with
    | .mounted helper relay => some ⟨Text.toUtf8 d.path, helper, relay⟩
    | _ => none

/-- Mounts what is missing and remembers it. -/
def stepSetup (id : Identity) (stored : Except MountError (Option Text)) (t : Tracker) :
    StateM σ (Except MountError SetupReport × Tracker) := do
  match stored with
  | .error e => return (.error e, t)
  | .ok stored =>
    let (report, attempts) ← mountAll backend id stored
    return (.ok report, (recordsOf attempts).foldl Tracker.register t)

def stepTeardown (os : Processes σ) (t : Tracker) : StateM σ (TeardownReport × Tracker) := t.drain backend os

/-- Detaches the path of every directive and counts the failures. -/
def nodeTeardown (stored : Except MountError (Option Text)) : StateM σ (Except MountError Nat) := do
  match stored with
  | .error e => return .error e
  | .ok stored =>
    let answers ← (MountList.decodeLenient (stored.getD [])).1.mapM fun d => backend.unmount (Text.toUtf8 d.path)
    return .ok (answers.filter fun answer => !answer.isOk).length

end BucketMount.Hooks
