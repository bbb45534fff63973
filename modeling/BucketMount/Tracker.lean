import BucketMount.Backend
import BucketMount.Path
import BucketMount.Process.Escalation

/-!
# The mounts of a step

A step remembers the mounts that it made itself, with the processes that serve them. Teardown takes the records in the
reverse order: it detaches the path, stops the helper, and gives the reader of its output time to end. Each record is
taken once and reported once, whatever goes wrong.
-/

namespace BucketMount

structure MountRecord where
  path : Bytes
  helper : Pid
  relay : Option Pid
deriving DecidableEq, Repr

structure RecordTeardown where
  path : Bytes
  unmountError : Option Text
  helper : KillReport
  relay : Option KillReport
deriving DecidableEq, Repr

namespace RecordTeardown

/-- Whether the mount has been detached and its helper is gone. -/
def isClean (r : RecordTeardown) : Bool := r.unmountError.isNone && r.helper.gone

/-- Whether the mount could not be detached or its helper lives on. -/
def hasFailed (r : RecordTeardown) : Bool := r.unmountError.isSome || !r.helper.gone

end RecordTeardown

structure TeardownReport where
  records : List RecordTeardown
deriving DecidableEq, Repr

namespace TeardownReport

def isClean (r : TeardownReport) : Bool := r.records.all (·.isClean)

def failures (r : TeardownReport) : Nat := r.records.countP (·.hasFailed)

end TeardownReport

/-- The mounts of a step, in the order in which they were made. -/
structure Tracker where
  records : List MountRecord
  /-- The time a helper gets to end by itself. -/
  grace : Duration
deriving DecidableEq, Repr

namespace Tracker

/-- The grace of a tracker for which none is given. -/
def standardGrace : Duration := milliseconds 200

def empty (grace : Duration) : Tracker := ⟨[], grace⟩

def register (t : Tracker) (r : MountRecord) : Tracker := { t with records := t.records ++ [r] }

/-- Whether a path is among the records, by its components. -/
def contains (t : Tracker) (path : Bytes) : Bool := t.records.any fun r => PathName.Same r.path path

variable {σ : Type} (backend : Backend σ) (os : Processes σ)

def teardownRecord (grace : Duration) (r : MountRecord) : StateM σ RecordTeardown := do
  let detached ← backend.unmount r.path
  let helper ← os.terminate r.helper grace
  let relay ← r.relay.mapM fun pid => os.reapOrKill pid grace
  let unmountError := match detached with
    | .ok () => none
    | .error e => some e.message
  return ⟨r.path, unmountError, helper, relay⟩

/-- Tears every record down, the last one first, and keeps none. -/
def drain (t : Tracker) : StateM σ (TeardownReport × Tracker) := do
  return (⟨← t.records.reverse.mapM (teardownRecord backend os t.grace)⟩, empty t.grace)

end Tracker
end BucketMount
