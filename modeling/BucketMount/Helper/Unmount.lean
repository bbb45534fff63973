import BucketMount.Backend
import BucketMount.Config.Basic
import BucketMount.Mountpoint.Probe

/-!
# Detaching a mount

A mount is detached gracefully; if that leaves it behind, lazily. What counts is whether the path is still a
mountpoint afterwards, not how the commands end.
-/

namespace BucketMount.Kernel

variable {ω : Type} (k : Kernel ω)

def detach (command : List Text) (path : Bytes) : StateM ω (Except LaunchFault ProcessEnd) := do
  match command with
  | [] => return .error .emptyCommand
  | words => k.run (words.map Text.toUtf8 ++ [path])

/-- Whether a path is a mountpoint, as the program itself sees it. -/
def isMountedHere (path : Bytes) : StateM ω Bool := do k.isMounted (k.credentials (← get)) path

/-- Detaches what is mounted at a path; a path that is no mountpoint needs nothing. -/
def unmount (c : Config) (path : Bytes) : StateM ω (Except MountError Unit) := do
  if ¬(← k.isMountedHere path) then return .ok ()
  let _ ← k.detach c.unmountCommand path
  if ¬(← k.isMountedHere path) then return .ok ()
  let _ ← k.detach c.lazyUnmountCommand path
  if ← k.isMountedHere path then return .error (.teardown (Text.ofUtf8Lossy path) .stillMounted)
  return .ok ()

end BucketMount.Kernel
