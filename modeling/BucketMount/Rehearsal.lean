import BucketMount.Backend
import BucketMount.Process.Readiness

/-!
# Rehearsals

A back end that mounts nothing: it keeps the set of paths that count as mounted and writes down what it was asked. The
plan of a rehearsal says which paths fail and which processes a mount starts. The hooks run in a rehearsal as they do
with any other back end.
-/

namespace BucketMount

inductive BackendCall where
  | mount (d : Directive)
  | unmount (path : Bytes)
deriving DecidableEq

structure Rehearsal where
  mounted : List Bytes
  calls : List BackendCall
deriving DecidableEq

namespace Rehearsal

def addPath (r : Rehearsal) (path : Bytes) : Rehearsal := { r with mounted := r.mounted ++ [path] }

def removePath (r : Rehearsal) (path : Bytes) : Rehearsal := { r with mounted := r.mounted.filter (· ≠ path) }

def note (r : Rehearsal) (call : BackendCall) : Rehearsal := { r with calls := r.calls ++ [call] }

end Rehearsal

structure RehearsalPlan (ω : Type) where
  /-- The error of a path that cannot be mounted. -/
  broken : Bytes → Option MountError
  /-- Whether a path cannot be detached. -/
  isStuck : Bytes → Bool
  /-- Starts the helper of a mount and, where there is one, the reader of its output. -/
  start : Bytes → StateM ω (Pid × Option Pid)

/-- The back end of a rehearsal, beside the processes that it starts. -/
def RehearsalPlan.backend {ω : Type} (plan : RehearsalPlan ω) : Backend (Rehearsal × ω) where
  name := "rehearsal".toList
  mount d _ := fun (r, w) =>
    let r := r.note (.mount d)
    let path := Text.toUtf8 d.path
    match plan.broken path with
    | some e => (.error e, r, w)
    | none =>
      if r.mounted.any (· = path) then (.ok .alreadyMounted, r, w)
      else
        let ((helper, relay), w) := plan.start path w
        (.ok (.mounted helper relay), r.addPath path, w)
  unmount path := fun (r, w) =>
    let r := r.note (.unmount path)
    if plan.isStuck path then (.error (.teardown (Text.ofUtf8Lossy path) (.stated "busy".toList)), r, w)
    else (.ok (), r.removePath path, w)

/-- A probe that agrees from its `n`-th question on, or never if `n` is 0; the questions are counted. -/
def Probe.fromNth {ω : Type} (os : Processes ω) (n : Nat) : Probe (os.beside Nat).toClock where
  ask := fun (asked, w) => (n ≠ 0 && n ≤ asked + 1, asked + 1, w)
  monotone_ask _ := Nat.le_refl _

end BucketMount
