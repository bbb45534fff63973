import BucketMount.Hooks.Capture
import BucketMount.Hooks.Step

/-!
# Sessions

The hooks as they are called one after the other, with one tracker for the mounts of the step. The transport, the back
end and the processes share a state, of which each may use its own part.
-/

namespace BucketMount

inductive HookCall where
  | capture (raw : Text) (base : Bytes)
  | nodeSetup (id : Identity)
  | stepSetup (id : Identity)
  /-- A mount that was made elsewhere is remembered. -/
  | register (r : MountRecord)
  | nodeTeardown
  | stepTeardown

inductive HookReply where
  | captured (answer : Except Failure MountList)
  | setUp (answer : Except MountError SetupReport)
  | registered
  | detached (answer : Except MountError Nat)
  | undone (report : TeardownReport)

namespace Hooks

variable {ω : Type} (transport : Transport ω) (backend : Backend ω) (os : Processes ω)

def call (c : HookCall) : StateM (Tracker × ω) HookReply := fun (t, w) =>
  match c with
  | .capture raw base =>
    let (answer, w) := capture transport raw base w
    (.captured answer, t, w)
  | .nodeSetup id =>
    let (answer, w) := nodeSetup backend id (transport.load w) w
    (.setUp answer, t, w)
  | .stepSetup id =>
    let ((answer, t), w) := stepSetup backend id (transport.load w) t w
    (.setUp answer, t, w)
  | .register r => (.registered, t.register r, w)
  | .nodeTeardown =>
    let (answer, w) := nodeTeardown backend (transport.load w) w
    (.detached answer, t, w)
  | .stepTeardown =>
    let ((report, t), w) := stepTeardown backend os t w
    (.undone report, t, w)

def session (calls : List HookCall) : StateM (Tracker × ω) (List HookReply) :=
  calls.mapM (call transport backend os)

end Hooks
end BucketMount
