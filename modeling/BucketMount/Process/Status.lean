import BucketMount.Errno
import BucketMount.Signal

/-!
# Processes and how they end

A process is known by its number. What the system says about a child when asked is a `WaitStatus`; two of its forms
say that the child has ended and has been taken off the process table (`WaitStatus.hasEnded`). How a process has ended
is a `ProcessEnd`, of which `ProcessEnd.status` makes the answer about a child.
-/

namespace BucketMount

abbrev Pid := Nat

inductive WaitStatus where
  /-- The child is still running. -/
  | running
  /-- The child has ended by itself with this code. -/
  | exited (code : Nat)
  /-- The child has died of a signal, leaving a core image or not. -/
  | signaled (signal : Signal) (core : Bool)
  /-- The child has been stopped by a signal. -/
  | stopped (signal : Signal)
  /-- The child goes on after having been stopped. -/
  | continued
deriving DecidableEq, Repr

namespace WaitStatus

/-- Whether the child has ended; it has then been reaped by the question. -/
def hasEnded : WaitStatus → Bool
  | exited _ | signaled _ _ => true
  | _ => false

def message (pid : Pid) : WaitStatus → Text
  | running => "StillAlive".toList
  | exited code =>
    "Exited(Pid(".toList ++ Text.decimal pid ++ "), ".toList ++ Text.decimal code ++ ")".toList
  | signaled signal core =>
    "Signaled(Pid(".toList ++ Text.decimal pid ++ "), ".toList ++ signal.name ++ ", ".toList ++
      (if core then "true".toList else "false".toList) ++ ")".toList
  | stopped signal =>
    "Stopped(Pid(".toList ++ Text.decimal pid ++ "), ".toList ++ signal.name ++ ")".toList
  | continued => "Continued(Pid(".toList ++ Text.decimal pid ++ "))".toList

end WaitStatus

inductive ProcessEnd where
  /-- By itself, with this code. -/
  | exited (code : Nat)
  /-- By the signal of this number, which need not have a name. -/
  | signaled (number : Nat)
deriving DecidableEq, Repr

namespace ProcessEnd

/-- The answer about a child that has ended. There is none for a signal without a name: the question fails then, and
the child is off the process table all the same. -/
def status : ProcessEnd → Except Errno WaitStatus
  | exited code => .ok (.exited code)
  | signaled number =>
    match Signal.ofNumber? number with
    | some signal => .ok (.signaled signal false)
    | none => .error .einval

/-- The exit code by which a shell knows the end of a command. -/
def shellCode : ProcessEnd → Nat
  | exited code => code
  | signaled number => 128 + number

end ProcessEnd
end BucketMount
