import BucketMount.Proofs.Process.BoundedWait
import BucketMount.Proofs.Process.Patience

/-!
# Times that are out of range

Every way of waiting computes a deadline from the clock, and the program does
not survive one that is out of range. Here a helper is stopped and waited for
with instants of 64 bits, and a time that cannot be computed breaks this off. As
long as the clock shows a time after which the longest wait still fits, it comes
to the same as with times without a limit (`Processes.terminate?_eq`,
`Processes.reapOrKill?_eq`, `Processes.awaitReady?_eq`).
-/

namespace BucketMount

variable {ω α β : Type}

/-- An operation that is never broken off. -/
def unbroken (op : StateM ω α) : StateT ω Option α := fun w => some (op w)

namespace Processes

section Stopping

variable (os : Processes ω) (pid : Pid) (grace : Duration)

/-! ## Stopping a process -/

def killAndReap? : StateT ω Option (Delivery × Bool × List KillNote) := do
  let delivery ← unbroken (os.deliver pid .kill)
  let (gone, notes) ← os.waitUntilGone? pid (max grace killGrace)
  return (delivery, gone, delivery.notes pid .kill ++ notes)

def terminate? : StateT ω Option KillReport := do
  let start := os.now (← get)
  let asked ← unbroken (os.deliver pid .term)
  if asked = .absent then return ⟨false, false, true, os.elapsedMs start (← get), []⟩
  let (gone, notes) ← os.waitUntilGone? pid grace
  let notes := asked.notes pid .term ++ notes
  if gone then return ⟨asked = .sent, false, true, os.elapsedMs start (← get), notes⟩
  let (killed, gone, later) ← os.killAndReap? pid grace
  return ⟨asked = .sent, killed = .sent, gone, os.elapsedMs start (← get), notes ++ later⟩

def reapOrKill? : StateT ω Option KillReport := do
  let start := os.now (← get)
  let (gone, notes) ← os.waitUntilGone? pid grace
  if gone then return ⟨false, false, true, os.elapsedMs start (← get), notes⟩
  let report ← os.terminate? pid grace
  return { report with notes := notes ++ report.notes }

/-- The clock goes on, and if it ends at a time after which so much more would
still fit, the operation is not broken off on the way. -/
def Fits (margin : Duration) (op? : StateT ω Option α) (op : StateM ω α) (w : ω) : Prop :=
  os.now w ≤ os.now (op w).2 ∧
    (os.now (op w).2 + margin < 2 ^ 63 * 10 ^ 9 → op? w = some (op w))

variable {os pid grace} {margin : Duration} {w : ω}

namespace Fits

variable {op? : StateT ω Option α} {op : StateM ω α}

theorem unbroken (mono : os.Monotone op) : os.Fits margin (unbroken op) op w :=
  ⟨mono w, fun _ => rfl⟩

theorem pure {a : α} : os.Fits margin (Pure.pure a) (Pure.pure a) w := ⟨le_rfl, fun _ => rfl⟩

/-- What is in range at the end was in range before, since the clock is not
turned back. -/
theorem bind {next? : α → StateT ω Option β} {next : α → StateM ω β}
    (first : os.Fits margin op? op w) (later : ∀ a w', os.Fits margin (next? a) (next a) w') :
    os.Fits margin (op? >>= next?) (op >>= next) w := by
  obtain ⟨hbefore, hfirst⟩ := first
  obtain ⟨hafter, hlater⟩ := later (op w).1 (op w).2
  refine ⟨hbefore.trans hafter, fun fits => ?_⟩
  have hstart := hfirst ((Nat.add_le_add_right hafter margin).trans_lt fits)
  change (op? w).bind (fun r => next? r.1 r.2) = _
  rw [hstart]
  exact hlater fits

theorem get {next? : ω → StateT ω Option β} {next : ω → StateM ω β}
    (later : os.Fits margin (next? w) (next w) w) :
    os.Fits margin (MonadState.get >>= next?) (MonadState.get >>= next) w := later

end Fits

/-- No operation on a process falls behind a time that has been reached. -/
theorem handling_time (os : Processes ω) (pid : Pid) (t : Nat) :
    os.Handling pid (t ≤ os.now ·) (t ≤ os.now ·) where
  sleep d w hw := hw.trans ((Nat.le_add_right _ d).trans (os.now_sleep d w))
  kill signal w hw := hw.trans (os.monotone_kill pid signal w)
  poll w hw := by
    dsimp only
    rw [ite_self]
    exact hw.trans (os.monotone_poll pid w)
  letGo _ hw := hw

theorem monotone_deliver (signal : Signal) : os.Monotone (os.deliver pid signal) :=
  fun w => (os.handling_time pid (os.now w)).deliver signal w le_rfl

theorem monotone_waitUntilGone (os : Processes ω) (pid : Pid) (deadline : Nat) :
    os.Monotone (os.waitUntilGone pid deadline) := by
  intro w
  have hwait := (os.handling_time pid (os.now w)).waitUntilGone deadline w le_rfl
  dsimp only at hwait
  rwa [ite_self] at hwait

theorem Fits.waitUntilGone {budget : Duration} (le : budget ≤ margin) :
    os.Fits margin (os.waitUntilGone? pid budget)
      (os.waitUntilGone pid (os.now w + budget)) w := by
  have hwaited := os.monotone_waitUntilGone pid (os.now w + budget) w
  exact ⟨hwaited, fun fits => os.waitUntilGone?_eq pid ((Nat.add_le_add hwaited le).trans_lt fits)⟩

/-- A wait from now on, and what comes after it. -/
theorem Fits.bind_waitUntilGone {budget : Duration} (le : budget ≤ margin)
    {next? : Bool × List KillNote → StateT ω Option β} {next : Bool × List KillNote → StateM ω β}
    (later : ∀ a w', os.Fits margin (next? a) (next a) w') :
    os.Fits margin (os.waitUntilGone? pid budget >>= next?)
      (MonadState.get >>= fun w => os.waitUntilGone pid (os.now w + budget) >>= next) w := by
  have waited : os.Fits margin (os.waitUntilGone? pid budget)
      (os.waitUntilGone pid (os.now w + budget)) w := .waitUntilGone le
  exact waited.bind later

theorem Fits.killAndReap (le : max grace killGrace ≤ margin) :
    os.Fits margin (os.killAndReap? pid grace) (os.killAndReap pid grace) w :=
  .bind (.unbroken (monotone_deliver .kill)) fun _ _ => .bind_waitUntilGone le fun _ _ => .pure

theorem Fits.terminate (le : max grace killGrace ≤ margin) :
    os.Fits margin (os.terminate? pid grace) (os.terminate pid grace) w := by
  have hgrace : grace ≤ margin := (le_max_left grace killGrace).trans le
  refine .get (.bind (.unbroken (monotone_deliver .term)) fun asked w' => ?_)
  split
  · exact .get .pure
  refine .bind_waitUntilGone hgrace fun answer w'' => ?_
  obtain ⟨gone, notes⟩ := answer
  cases gone with
  | true => exact .get .pure
  | false => exact .bind (.killAndReap le) fun _ _ => .get .pure

theorem Fits.reapOrKill (le : max grace killGrace ≤ margin) :
    os.Fits margin (os.reapOrKill? pid grace) (os.reapOrKill pid grace) w := by
  have hgrace : grace ≤ margin := (le_max_left grace killGrace).trans le
  refine .get (.bind (.waitUntilGone hgrace) fun answer w' => ?_)
  obtain ⟨gone, notes⟩ := answer
  cases gone with
  | true => exact .get .pure
  | false => exact .bind (.terminate le) fun _ _ => .pure

/-- A process is stopped in the same way with instants and without a limit, if
at the end the longer of the two waits would still fit. -/
theorem terminate?_eq
    (fits : os.now (os.terminate pid grace w).2 + max grace killGrace < 2 ^ 63 * 10 ^ 9) :
    os.terminate? pid grace w = some (os.terminate pid grace w) :=
  (Fits.terminate le_rfl).2 fits

theorem reapOrKill?_eq
    (fits : os.now (os.reapOrKill pid grace w).2 + max grace killGrace < 2 ^ 63 * 10 ^ 9) :
    os.reapOrKill? pid grace w = some (os.reapOrKill pid grace w) :=
  (Fits.reapOrKill le_rfl).2 fits

end Stopping

/-! ## Waiting for a helper -/

section Waiting

variable (os : Processes ω) (pid : Pid) (interval : Duration) (probe : Probe os.toClock)

/-- A wait until an instant, which is broken off where a time cannot be
computed. -/
def awaitReadyUntil? (deadline : Instant) (w : ω) : Option (Except MountError Readiness × ω) :=
  match _hprobe : probe.ask w with
  | (true, w₁) => some (.ok .ready, w₁)
  | (false, w₁) =>
    match _hpoll : os.poll pid w₁ with
    | (answer, w₂) =>
      match _hdecided : Readiness.decided pid answer with
      | some result => some (result, w₂)
      | none =>
        if _h : (Instant.ofTime (os.now w₂)).Before deadline then
          match _hleft : deadline.since? (Instant.ofTime (os.now w₂)) with
          | none => none
          | some left => awaitReadyUntil? deadline (os.sleep (max 1 (min interval left)) w₂)
        else some (.ok .timedOut, w₂)
termination_by (deadline.time - os.now w).toNat
decreasing_by
  have hasked := probe.monotone_ask w
  rw [_hprobe] at hasked
  have hlooked := os.monotone_poll pid w₁
  rw [_hpoll] at hlooked
  have hslept := os.now_sleep (max 1 (min interval left)) w₂
  have hbefore := Instant.before_iff.mp _h
  rw [Instant.time_ofTime] at hbefore
  simp only at hasked hlooked
  omega

/-- A wait for a length of time, from now on. -/
def awaitReady? (timeout : Duration) (w : ω) : Option (Except MountError Readiness × ω) :=
  ((Instant.ofTime (os.now w)).add? timeout).bind fun deadline =>
    os.awaitReadyUntil? pid interval probe deadline w

/-- Until an instant that fits, the time that is left can always be computed. -/
theorem awaitReadyUntil?_eq {deadline : Instant} {t : Nat} (fits : deadline.seconds < 2 ^ 63)
    (time : deadline.time = t) (w : ω) :
    os.awaitReadyUntil? pid interval probe deadline w =
      some (os.awaitReady pid interval t probe w) := by
  have hleft {n : Nat} (hn : n < t) : deadline.since? (Instant.ofTime n) = some (t - n) :=
    Instant.since?_ofTime fits time (Nat.le_of_lt hn)
  fun_induction os.awaitReadyUntil? pid interval probe deadline w with
  | case1 w w₁ hprobe => rw [os.awaitReady_of_ready pid interval t probe hprobe]
  | case2 w w₁ hprobe answer w₂ hpoll result hdecided =>
    rw [os.awaitReady_of_settled pid interval t probe hprobe hpoll hdecided]
  | case3 w w₁ hprobe answer w₂ hpoll hdecided hbefore hnone =>
    rw [hleft ((Instant.ofTime_before_iff time).mp hbefore)] at hnone
    cases hnone
  | case4 w w₁ hprobe answer w₂ hpoll hdecided hbefore left hsome ih =>
    have hearly := (Instant.ofTime_before_iff time).mp hbefore
    cases (hleft hearly).symm.trans hsome
    rw [ih, os.awaitReady_of_unsettled pid interval t probe hprobe hpoll hdecided, if_pos hearly]
  | case5 w w₁ hprobe answer w₂ hpoll hdecided hbefore =>
    rw [Instant.ofTime_before_iff time] at hbefore
    rw [os.awaitReady_of_unsettled pid interval t probe hprobe hpoll hdecided, if_neg hbefore]

/-- A helper is waited for in the same way with instants and without a limit, if
the deadline fits. -/
theorem awaitReady?_eq {timeout : Duration} {w : ω}
    (fits : os.now w + timeout < 2 ^ 63 * 10 ^ 9) :
    os.awaitReady? pid interval probe timeout w =
      some (os.awaitReady pid interval (os.now w + timeout) probe w) := by
  obtain ⟨deadline, hdeadline, hseconds, htime⟩ := Instant.exists_deadline fits
  exact Option.bind_eq_some_iff.mpr
    ⟨deadline, hdeadline, os.awaitReadyUntil?_eq pid interval probe hseconds htime w⟩

end Waiting

end Processes
end BucketMount
