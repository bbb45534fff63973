import BucketMount.Kernel

/-!
# Whether a path is a mountpoint

A path is a mountpoint if it lies on another device than its parent directory, or if it is its own parent, which is so
only at the root. A mount whose server is gone answers "not connected"; it still counts, so that it can be detached.
-/

namespace BucketMount

structure FileIds where
  device : Nat
  inode : Nat
deriving DecidableEq, Repr

def FileInfo.ids (f : FileInfo) : FileIds := ⟨f.device, f.inode⟩

/-- Whether a path is a mountpoint, from what is known about it and about its parent. -/
def classify (path parent : Except Errno FileIds) : Bool :=
  match path, parent with
  | .error e, _ => e = .enotconn
  | .ok _, .error _ => false
  | .ok p, .ok q => p.device ≠ q.device || p.inode = q.inode

def parentPath (path : Bytes) : Bytes := path ++ Text.toUtf8 "/..".toList

def Files.isMounted {ω : Type} (files : Files ω) (caller : Credentials) (path : Bytes) : StateM ω Bool := do
  match ← files.stat caller path with
  | .error .enotconn => return true
  | answer => return classify (answer.map (·.ids)) ((← files.stat caller (parentPath path)).map (·.ids))

end BucketMount
