import BucketMount.Backend
import BucketMount.Worker.Basic

/-!
# Dictated answers

A system, and a back end on it, whose answers are written down beforehand and
are given one after the other. What nothing is dictated for succeeds, there are
no files, and time passes only in waiting. So a run can be worked out, and a
hypothesis about the answers of a system can be seen to hold of some system.

The loops on a pipe end because each call makes progress or takes a signal away,
which is nothing that an evaluation can follow. With a bound on the number of
calls it can, and as far as the bound goes they are the same loops
(`Kernel.send_eq_within`, `Kernel.fill_eq_within`).
-/

namespace BucketMount

/-- The answers that are still to be given. -/
structure Dictation where
  /-- The numbers for the processes that are started. -/
  starts : List Pid
  /-- What is said of the processes that are asked after. -/
  ends : List WaitStatus
  /-- What is read from pipes. -/
  chunks : List Bytes
  /-- The signals that have arrived at each look. -/
  arrivals : List (List TerminationSignal)
  /-- What the back end answers when it is asked for a mount. -/
  outcomes : List (Except MountError MountOutcome)
  time : Nat

namespace Dictation

/-- The next number for a process, or the fault when there are no more. -/
def start {ε : Type} (fault : ε) : StateM Dictation (Except ε Pid) := fun w =>
  match w.starts with
  | [] => (.error fault, w)
  | pid :: rest => (.ok pid, { w with starts := rest })

/-- What is said next of a process; when there is no more, it is no child. -/
def status : StateM Dictation (Except Errno WaitStatus) := fun w =>
  match w.ends with
  | [] => (.error .echild, w)
  | status :: rest => (.ok status, { w with ends := rest })

/-- The next bytes from a pipe. -/
def chunk (n : Nat) : StateM Dictation (Except Errno Bytes) := fun w =>
  match w.chunks with
  | [] => (.ok [], w)
  | bytes :: rest => (.ok (bytes.take n), { w with chunks := rest })

/-- The next signals. -/
def arrived : StateM Dictation (List TerminationSignal) := fun w =>
  (w.arrivals.headD [], { w with arrivals := w.arrivals.tail })

/-- The next answer to a question for a mount. -/
def outcome : StateM Dictation (Except MountError MountOutcome) := fun w =>
  (w.outcomes.headD (.ok .alreadyMounted), { w with outcomes := w.outcomes.tail })

theorem time_start {ε : Type} (fault : ε) (w : Dictation) : (start fault w).2.time = w.time := by
  unfold start
  split <;> rfl

theorem time_status (w : Dictation) : (status w).2.time = w.time := by
  unfold status
  split <;> rfl

/-- The system with these answers. -/
def kernel : Kernel Dictation where
  now := time
  sleep d w := { w with time := w.time + d }
  now_sleep _ _ := Nat.le_refl _
  kill _ _ := pure (.ok ())
  poll _ := status
  monotone_kill _ _ _ := Nat.le_refl _
  monotone_poll _ w := Nat.le_of_eq (time_status w).symm
  stat _ _ := pure (.error .enoent)
  makeDir _ _ _ := pure (.ok ())
  hasEntries _ _ := pure (.ok false)
  canWrite _ _ := pure true
  credentials _ := .ofUser 0 0 []
  idRules := .unrestricted
  account _ := none
  environment _ := []
  workingDirectory _ := []
  readFile _ := pure (.error (.system .enoent))
  print _ := pure ()
  printError _ := pure ()
  openPipe := pure (.ok 0)
  closeWriter _ := pure ()
  write _ bytes := pure (.ok bytes.length)
  read _ := chunk
  fork := start .eagain
  leave _ _ := pure ()
  exec _ _ _ := pure none
  redirect _ := pure (.ok ())
  await _ := status
  startReader _ _ := start (.system .eagain)
  run _ := pure (.ok (.exited 0))
  arrived := arrived
  interruptions w := w.ends.length
  length_read _ n w bytes h := by
    unfold chunk at h
    split at h
    · cases h
      exact Nat.zero_le n
    · cases h
      exact List.length_take_le n _
  interrupted_write _ _ _ h := by cases h
  interrupted_read _ n w h := by
    unfold chunk at h
    split at h <;> cases h
  interrupted_await _ w h := by
    unfold status at h ⊢
    split at h
    · rcases h with h | ⟨_, h, _⟩ <;> cases h
    · simp_all
  monotone_stat _ _ _ := Nat.le_refl _
  monotone_openPipe _ := Nat.le_refl _
  monotone_write _ _ _ := Nat.le_refl _
  monotone_fork w := Nat.le_of_eq (time_start _ w).symm
  monotone_leave _ _ _ := Nat.le_refl _
  monotone_await _ w := Nat.le_of_eq (time_status w).symm

/-- The back end with these answers; every path can be detached. -/
def backend : Backend Dictation where
  name := "dictation".toList
  mount _ _ := outcome
  unmount _ := pure (.ok ())

end Dictation

/-! ## Working a run out -/

namespace Kernel

variable {ω : Type} (k : Kernel ω) (pipe : Pipe)

/-- Writes bytes with at most so many calls, if these are enough. -/
def sendWithin : Nat → Bytes → ω → Option (Unit × ω)
  | _, [], w => some ((), w)
  | 0, _ :: _, _ => none
  | calls + 1, b :: rest, w =>
    match k.write pipe (b :: rest) w with
    | (.ok 0, w') => some ((), w')
    | (.ok (n + 1), w') => sendWithin calls (rest.drop n) w'
    | (.error e, w') => if e = .eintr then sendWithin calls (b :: rest) w' else some ((), w')

/-- Reads a report with at most so many calls, if these are enough. -/
def fillWithin : Nat → Bytes → ω → Option (Except Errno Bytes × ω)
  | 0, _, _ => none
  | calls + 1, got, w =>
    if got.length < Report.size then
      match k.read pipe (Report.size - got.length) w with
      | (.ok [], w') => some (.ok got, w')
      | (.ok (b :: chunk), w') => fillWithin calls (got ++ b :: chunk) w'
      | (.error e, w') => if e = .eintr then fillWithin calls got w' else some (.error e, w')
    else some (.ok got, w)

variable {k pipe}

theorem send_of_within {calls : Nat} {bytes : Bytes} {w : ω} {sent : Unit × ω}
    (h : k.sendWithin pipe calls bytes w = some sent) : k.send pipe bytes w = sent := by
  induction calls generalizing bytes w with
  | zero =>
    cases bytes with
    | nil =>
      rw [send]
      exact Option.some.inj h
    | cons b rest => cases h
  | succ calls ih =>
    cases bytes with
    | nil =>
      rw [send]
      exact Option.some.inj h
    | cons b rest =>
      rw [sendWithin] at h
      rw [send]
      rcases hwrite : k.write pipe (b :: rest) w with ⟨e | n, w'⟩
      · rw [hwrite] at h
        dsimp only at h ⊢
        by_cases he : e = .eintr
        · rw [if_pos he] at h
          rw [dif_pos he]
          exact ih h
        · rw [if_neg he] at h
          rw [dif_neg he]
          exact Option.some.inj h
      · rw [hwrite] at h
        cases n with
        | zero => exact Option.some.inj h
        | succ n => exact ih h

theorem fill_of_within {calls : Nat} {got : Bytes} {w : ω} {filled : Except Errno Bytes × ω}
    (h : k.fillWithin pipe calls got w = some filled) : k.fill pipe got w = filled := by
  induction calls generalizing got w with
  | zero => cases h
  | succ calls ih =>
    rw [fillWithin] at h
    rw [fill]
    by_cases hgot : got.length < Report.size
    · rw [if_pos hgot] at h
      rw [dif_pos hgot]
      rcases hread : k.read pipe (Report.size - got.length) w with ⟨e | chunk, w'⟩
      · rw [hread] at h
        dsimp only at h ⊢
        by_cases he : e = .eintr
        · rw [if_pos he] at h
          rw [dif_pos he]
          exact ih h
        · rw [if_neg he] at h
          rw [dif_neg he]
          exact Option.some.inj h
      · rw [hread] at h
        cases chunk with
        | nil => exact Option.some.inj h
        | cons b chunk => exact ih h
    · rw [if_neg hgot] at h
      rw [dif_neg hgot]
      exact Option.some.inj h

/-- What a bounded loop comes to is what the loop comes to. -/
theorem send_eq_within (calls : Nat) :
    k.send = fun pipe bytes w => (k.sendWithin pipe calls bytes w).getD (k.send pipe bytes w) := by
  funext pipe bytes w
  cases hsent : k.sendWithin pipe calls bytes w with
  | none => rfl
  | some sent => exact send_of_within hsent

theorem fill_eq_within (calls : Nat) :
    k.fill = fun pipe got w => (k.fillWithin pipe calls got w).getD (k.fill pipe got w) := by
  funext pipe got w
  cases hfilled : k.fillWithin pipe calls got w with
  | none => rfl
  | some filled => exact fill_of_within hfilled

end Kernel
end BucketMount
