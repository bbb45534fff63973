import BucketMount.Directive.Basic
import BucketMount.Identity

/-!
# Back ends

What the hooks need to mount and unmount, on a state `σ`.
-/

namespace BucketMount

/-- What came of a mount that did not fail. -/
inductive MountOutcome where
  /-- The path was a mountpoint already; nothing was started. -/
  | alreadyMounted
  /-- A helper serves the mount and goes on running, with a process that reads its output if there is one. -/
  | mounted (helper : Pid) (relay : Option Pid)
deriving DecidableEq, Repr

structure Backend (σ : Type) where
  name : Text
  mount : Directive → Identity → StateM σ (Except MountError MountOutcome)
  unmount : Bytes → StateM σ (Except MountError Unit)

end BucketMount
