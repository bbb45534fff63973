import BucketMount.Process.Status

/-!
# Time and other processes

What the program needs to know of time and of other processes, as operations on a state `ω` of everything around the
program. Nothing is assumed about their answers. About time it is assumed that waiting takes at least as long as
asked and that no operation turns the clock back; every bounded wait ends for that reason alone.

Time is counted in nanoseconds, without a limit. The instants of the system have 64 bits for their seconds, and a
deadline beyond them would end the program. Below them it makes no difference (`Processes.terminate?_eq`,
`Processes.awaitReady?_eq`).
-/

namespace BucketMount

/-- A length of time in nanoseconds. -/
abbrev Duration := Nat

def milliseconds (n : Nat) : Duration := n * 1000000

structure Clock (ω : Type) where
  /-- The time. -/
  now : ω → Nat
  /-- Waits for a length of time. -/
  sleep : Duration → ω → ω
  /-- Waiting takes at least as long as asked. -/
  now_sleep : ∀ d w, now w + d ≤ now (sleep d w)

/-- An operation that does not turn the clock back. -/
def Clock.Monotone {ω α : Type} (clock : Clock ω) (op : StateM ω α) : Prop :=
  ∀ w, clock.now w ≤ clock.now (op w).2

namespace Clock.Monotone

variable {ω α β : Type} {clock : Clock ω}

theorem pure (a : α) : clock.Monotone (Pure.pure a : StateM ω α) := fun _ => Nat.le_refl _

theorem get : clock.Monotone (MonadState.get : StateM ω ω) := fun _ => Nat.le_refl _

theorem bind {op : StateM ω α} {next : α → StateM ω β} (first : clock.Monotone op)
    (later : ∀ a, clock.Monotone (next a)) : clock.Monotone (op >>= next) :=
  fun w => Nat.le_trans (first w) (later _ _)

end Clock.Monotone

structure Processes (ω : Type) extends Clock ω where
  /-- Sends a signal; without one, only asks whether that would be possible. -/
  kill : Pid → Option Signal → StateM ω (Except Errno Unit)
  /-- Asks about a child without waiting. A child that has ended is reaped by this. -/
  poll : Pid → StateM ω (Except Errno WaitStatus)
  monotone_kill : ∀ pid signal, toClock.Monotone (kill pid signal)
  monotone_poll : ∀ pid, toClock.Monotone (poll pid)

/-- An operation that leaves a second state beside its own as it is. -/
def beside {σ ω α : Type} (op : StateM ω α) : StateM (σ × ω) α := fun (s, w) =>
  let (a, w) := op w
  (a, s, w)

def Processes.beside {ω : Type} (os : Processes ω) (σ : Type) : Processes (σ × ω) where
  now s := os.now s.2
  sleep d s := (s.1, os.sleep d s.2)
  now_sleep d s := os.now_sleep d s.2
  kill pid signal := BucketMount.beside (os.kill pid signal)
  poll pid := BucketMount.beside (os.poll pid)
  monotone_kill pid signal s := os.monotone_kill pid signal s.2
  monotone_poll pid s := os.monotone_poll pid s.2

end BucketMount
