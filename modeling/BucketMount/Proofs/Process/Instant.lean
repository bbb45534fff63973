import BucketMount.Process.Basic
import Mathlib.Algebra.Order.Ring.Int

/-!
# Instants

The system counts time in seconds and nanoseconds, and there are 64 bits for the
seconds. What is computed with instants has to fit, or there is no answer
(`Instant.add?`, `Instant.since?`). Where there is one, it is what comes of the
time in nanoseconds, and there is one wherever the seconds stay in range
(`Instant.exists_add?`, `Instant.since?_eq`).
-/

namespace BucketMount

/-- The number, if it fits into 64 bits with a sign. -/
def fit64? (n : Int) : Option Int := if -2 ^ 63 ≤ n ∧ n < 2 ^ 63 then some n else none

variable {n m : Int}

theorem fit64?_eq (lower : -2 ^ 63 ≤ n) (upper : n < 2 ^ 63) : fit64? n = some n :=
  if_pos ⟨lower, upper⟩

theorem eq_of_fit64? (h : fit64? n = some m) : m = n := by
  unfold fit64? at h
  split at h
  · exact (Option.some.inj h).symm
  · cases h

/-- Whole seconds and the nanoseconds after them, of which a second has 10 ^ 9. -/
structure Instant where
  seconds : Int
  nanos : Nat
  nanos_lt : nanos < 10 ^ 9

namespace Instant

/-- The instant that the clock shows at a time. -/
def ofTime (t : Nat) : Instant := ⟨(t / 10 ^ 9 : Nat), t % 10 ^ 9, Nat.mod_lt t (by decide)⟩

/-- The nanoseconds since the clock was started. -/
def time (i : Instant) : Int := i.seconds * 10 ^ 9 + i.nanos

def Before (i j : Instant) : Prop :=
  i.seconds < j.seconds ∨ i.seconds = j.seconds ∧ i.nanos < j.nanos

instance (i j : Instant) : Decidable (i.Before j) := by
  unfold Before
  infer_instance

/-- The instant so much later. Nanoseconds that make a second are carried. -/
def add? (i : Instant) (d : Duration) : Option Instant := do
  let seconds ← fit64? (i.seconds + (d / 10 ^ 9 : Nat))
  if h : i.nanos + d % 10 ^ 9 < 10 ^ 9 then return ⟨seconds, i.nanos + d % 10 ^ 9, h⟩
  else return ⟨← fit64? (seconds + 1), i.nanos + d % 10 ^ 9 - 10 ^ 9, by
    have hi := i.nanos_lt
    have hd : d % 10 ^ 9 < 10 ^ 9 := Nat.mod_lt d (by decide)
    omega⟩

/-- So many seconds and nanoseconds as a length of time. -/
def span? (seconds : Int) (nanos : Nat) : Option Duration :=
  if 0 ≤ seconds then some (seconds.toNat * 10 ^ 9 + nanos) else none

/-- The length of time since another instant. A second is borrowed where the
nanoseconds are fewer. -/
def since? (later earlier : Instant) : Option Duration := do
  let seconds ← fit64? (later.seconds - earlier.seconds)
  if earlier.nanos ≤ later.nanos then span? seconds (later.nanos - earlier.nanos)
  else span? (← fit64? (seconds - 1)) (later.nanos + 10 ^ 9 - earlier.nanos)

variable {i j later earlier : Instant} {d : Duration}

theorem time_ofTime (t : Nat) : (ofTime t).time = t := by
  change ((t / 10 ^ 9 : Nat) : Int) * 10 ^ 9 + (t % 10 ^ 9 : Nat) = t
  exact_mod_cast Nat.div_add_mod' t (10 ^ 9)

theorem before_iff : i.Before j ↔ i.time < j.time := by
  have hi := i.nanos_lt
  have hj := j.nanos_lt
  unfold Before time
  omega

/-- The later instant can be computed if its seconds fit. -/
theorem exists_add? (nonneg : 0 ≤ i.seconds) (fits : i.time + d < 2 ^ 63 * 10 ^ 9) :
    ∃ j, i.add? d = some j ∧ j.time = i.time + d := by
  have hi := i.nanos_lt
  unfold time at fits ⊢
  have hseconds : fit64? (i.seconds + (d / 10 ^ 9 : Nat)) = some (i.seconds + (d / 10 ^ 9 : Nat)) :=
    fit64?_eq (by omega) (by omega)
  by_cases hcarry : i.nanos + d % 10 ^ 9 < 10 ^ 9
  · refine ⟨_, Option.bind_eq_some_iff.mpr ⟨_, hseconds, dif_pos hcarry⟩, ?_⟩
    dsimp only
    omega
  · have hnext : fit64? (i.seconds + (d / 10 ^ 9 : Nat) + 1) =
        some (i.seconds + (d / 10 ^ 9 : Nat) + 1) := fit64?_eq (by omega) (by omega)
    refine ⟨_, Option.bind_eq_some_iff.mpr ⟨_, hseconds, (dif_neg hcarry).trans
      (Option.bind_eq_some_iff.mpr ⟨_, hnext, rfl⟩)⟩, ?_⟩
    dsimp only
    omega

theorem span?_eq {nanos : Nat} (nonneg : 0 ≤ n) (h : (d : Int) = n * 10 ^ 9 + nanos) :
    span? n nanos = some d := by
  have hd : (n.toNat * 10 ^ 9 + nanos : Nat) = d := by omega
  rw [span?, if_pos nonneg, hd]

theorem eq_of_span? {nanos : Nat} (h : span? n nanos = some d) :
    (d : Int) = n * 10 ^ 9 + nanos := by
  unfold span? at h
  split at h
  · rw [← Option.some.inj h]
    omega
  · cases h

theorem time_of_since? (h : later.since? earlier = some d) : later.time = earlier.time + d := by
  unfold since? at h
  obtain ⟨seconds, hseconds, h⟩ := Option.bind_eq_some_iff.mp h
  cases eq_of_fit64? hseconds
  unfold time
  split at h
  · have hspan := eq_of_span? h
    omega
  · obtain ⟨seconds', hborrow, h⟩ := Option.bind_eq_some_iff.mp h
    cases eq_of_fit64? hborrow
    have hspan := eq_of_span? h
    have hlater := later.nanos_lt
    have hearlier := earlier.nanos_lt
    omega

/-- The length of time between two instants that fit can be computed. -/
theorem since?_eq (nonneg : 0 ≤ earlier.seconds) (fits : later.seconds < 2 ^ 63)
    (h : later.time = earlier.time + d) : later.since? earlier = some d := by
  have hlater := later.nanos_lt
  have hearlier := earlier.nanos_lt
  unfold time at h
  have hseconds : fit64? (later.seconds - earlier.seconds) =
      some (later.seconds - earlier.seconds) := fit64?_eq (by omega) (by omega)
  refine Option.bind_eq_some_iff.mpr ⟨_, hseconds, ?_⟩
  by_cases hborrow : earlier.nanos ≤ later.nanos
  · rw [if_pos hborrow]
    exact span?_eq (by omega) (by omega)
  · have hless : fit64? (later.seconds - earlier.seconds - 1) =
        some (later.seconds - earlier.seconds - 1) := fit64?_eq (by omega) (by omega)
    rw [if_neg hborrow]
    exact Option.bind_eq_some_iff.mpr ⟨_, hless, span?_eq (by omega) (by omega)⟩

/-! ## Readings of the clock -/

theorem ofTime_before_iff {t t' : Nat} (time : i.time = t') : (ofTime t).Before i ↔ t < t' := by
  rw [before_iff, time_ofTime, time]
  exact Int.ofNat_lt

/-- A deadline that fits can be computed, so much after a reading of the clock. -/
theorem exists_deadline {t : Nat} (fits : t + d < 2 ^ 63 * 10 ^ 9) :
    ∃ j, (ofTime t).add? d = some j ∧ j.seconds < 2 ^ 63 ∧ j.time = (t + d : Nat) := by
  obtain ⟨j, hj, htime⟩ := exists_add? (i := ofTime t) (d := d) (Int.natCast_nonneg _)
    (by rw [time_ofTime]; omega)
  rw [time_ofTime] at htime
  refine ⟨j, hj, ?_, by exact_mod_cast htime⟩
  have hnanos := j.nanos_lt
  unfold time at htime
  omega

/-- The time that is left until an instant that fits can be computed. -/
theorem since?_ofTime {t t' : Nat} (fits : i.seconds < 2 ^ 63) (time : i.time = t') (h : t ≤ t') :
    i.since? (ofTime t) = some (t' - t) := by
  refine since?_eq (Int.natCast_nonneg _) fits ?_
  rw [time_ofTime, time]
  omega

end Instant
end BucketMount
