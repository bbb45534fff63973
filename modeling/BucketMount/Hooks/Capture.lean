import BucketMount.MountList.Merge
import BucketMount.MountList.Resolution
import BucketMount.Transport

/-!
# Capturing mounts at submission

A request is a text of directives. It is read, its relative paths are resolved, and it is merged with what has been
captured before; the merged list has to fit the transport. Either all of this succeeds and the new list is stored, or
the request is refused and the transport stays as it was.
-/

namespace BucketMount

def MountList.admit (raw : Text) (base : Bytes) (stored : Except MountError (Option Text)) :
    Except MountError MountList := do
  let requested ← decode raw
  if requested = [] then throw (.parse raw .nothingRequested)
  let resolved ← resolveAll base requested
  let existing ← match ← stored with
    | some t => decode t
    | none => pure []
  existing.merge resolved

namespace Hooks

/-- Adds the directives of a request to the transport and answers the whole list. -/
def capture {τ : Type} (transport : Transport τ) (raw : Text) (base : Bytes) :
    StateM τ (Except Failure MountList) := do
  let s ← get
  match MountList.admit raw base (transport.load s) with
  | .error e => return .error (.refused e)
  | .ok merged =>
    match merged.encodeBounded (transport.capacity s) with
    | .error e => return .error (.refused e)
    | .ok encoded => return (← transport.store encoded).map fun _ => merged

end Hooks
end BucketMount
