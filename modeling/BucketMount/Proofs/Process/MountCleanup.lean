import BucketMount.Proofs.Dictation
import BucketMount.Proofs.Journal
import BucketMount.Proofs.Process.Charge
import BucketMount.Proofs.Process.Reaping

/-!
# A mount that fails

Every process that a failed mount has started has been seen to when it returns:
an answer has not left open that it goes on, or it has been asked to end. That
is so unless the error is one of `MountError.Abandons`; a status that is cut
short, for one, leaves both the worker and the reader of its output behind
(`mount_abandons_truncated`).
-/

namespace BucketMount

/-- The event is an answer about the process that does not leave open that it
goes on, or a request to it to end. -/
def Event.Settles (pid : Pid) : Event → Prop
  | .waited p answer => p = pid ∧ ¬leavesOpen answer
  | .signalled p signal => p = pid ∧ signal = some .term
  | _ => False

namespace Journal

/-- Whoever was started has been seen to since, apart from `held`. -/
def SeenTo (j : Journal) (held : List Pid) : Prop :=
  ∀ before pid since, j = before ++ .forked pid :: since →
    pid ∈ held ∨ ∃ e ∈ since, e.Settles pid

variable {j : Journal} {e : Event} {pid : Pid} {held held' : List Pid}

theorem seenTo_nil : SeenTo [] held := by
  intro before pid since hj
  cases before <;> cases hj

theorem SeenTo.mono (h : SeenTo j held) (hsub : held ⊆ held') : SeenTo j held' :=
  fun before pid since hj => (h before pid since hj).imp (fun hmem => hsub hmem) id

/-- One event more, with what it says of each process that was in question. -/
theorem SeenTo.snoc (h : SeenTo j held) (hforked : ∀ pid, e = .forked pid → pid ∈ held')
    (hheld : ∀ pid ∈ held, pid ∈ held' ∨ e.Settles pid) : SeenTo (j ++ [e]) held' := by
  intro before pid since hsplit
  rcases split_snoc hsplit with ⟨_, he, _⟩ | ⟨rest, rfl, hj⟩
  · exact Or.inl (hforked pid he.symm)
  · rcases h before pid rest hj with hmem | ⟨x, hx, hsettles⟩
    · rcases hheld pid hmem with hmem | hsettles
      · exact Or.inl hmem
      · exact Or.inr ⟨e, by simp, hsettles⟩
    · exact Or.inr ⟨x, by simp [hx], hsettles⟩

theorem SeenTo.snoc_other (h : SeenTo j held) (hforked : ∀ pid, e ≠ .forked pid) :
    SeenTo (j ++ [e]) held :=
  h.snoc (fun pid he => absurd he (hforked pid)) fun _ hmem => Or.inl hmem

theorem SeenTo.forked (h : SeenTo j held) (pid : Pid) :
    SeenTo (j ++ [.forked pid]) (pid :: held) := by
  refine h.snoc ?_ fun q hq => Or.inl (List.mem_cons_of_mem pid hq)
  rintro q heq
  cases heq
  exact List.mem_cons_self

theorem SeenTo.settled (h : SeenTo j (pid :: held)) (hforked : ∀ q, e ≠ .forked q)
    (hsettles : e.Settles pid) : SeenTo (j ++ [e]) held := by
  refine h.snoc (fun q he => absurd he (hforked q)) fun q hq => ?_
  rcases List.mem_cons.mp hq with rfl | hq
  · exact Or.inr hsettles
  · exact Or.inl hq

/-! ## The system with a journal -/

/-- Since the journal was `start`, whoever was started has been seen to, apart
from `held`. -/
def Answerable {ω : Type} (start : Journal) (held : List Pid) (s : Journal × ω) : Prop :=
  ∃ events, s.1 = start ++ events ∧ SeenTo events held

section System

variable {ω : Type} {start : Journal}

theorem ensures_noting_answerable {α : Type} {events : α → Journal} {after : α → List Pid}
    {op : StateM ω α} (h : ∀ j a, SeenTo j held → SeenTo (j ++ events a) (after a)) :
    Ensures (Answerable start held) (noting events op) fun a => Answerable start (after a) := by
  rintro ⟨j, w⟩ ⟨since, rfl, hsince⟩
  exact ⟨since ++ events (op w).1, List.append_assoc .., h since _ hsince⟩

theorem keeps_noting_answerable {α : Type} {event : α → Event} {op : StateM ω α}
    (h : ∀ a pid, event a ≠ .forked pid) :
    Keeps (Answerable start held) (noting (fun a => [event a]) op) :=
  ensures_noting_answerable fun _ a hj => hj.snoc_other (h a)

theorem ensures_start_answerable {ε : Type} (op : StateM ω (Except ε Pid)) :
    Ensures (Answerable start held) (noting Event.ofStart op) fun answer =>
      Answerable start (answer.toOption.toList ++ held) := by
  refine ensures_noting_answerable fun j answer hj => ?_
  cases answer with
  | ok pid => exact hj.forked pid
  | error e =>
    have hsame : j ++ Event.ofStart (.error e) = j := List.append_nil j
    rw [hsame]
    exact hj

theorem ensures_wait_answerable {op : StateM ω (Except Errno WaitStatus)} :
    Ensures (Answerable start (pid :: held)) (noting (fun answer => [.waited pid answer]) op) fun
      answer => if leavesOpen answer then Answerable start (pid :: held)
        else Answerable start held := by
  refine .of_ite (ensures_noting_answerable fun j answer hj => ?_)
  split
  · exact hj.snoc_other nofun
  · next hclosed => exact hj.settled nofun ⟨rfl, hclosed⟩

variable (k : Kernel ω)

theorem settling_journaled (start : Journal) (held : List Pid) (pid : Pid) :
    k.journaled.Settling pid (Answerable start (pid :: held)) (Answerable start held) where
  sleep _ _ hs := hs
  poll := ensures_wait_answerable
  term := by
    have asked : Ensures (Answerable start (pid :: held))
        (noting (fun _ => [.signalled pid (some .term)]) (k.kill pid (some .term)))
        fun _ => Answerable start held :=
      ensures_noting_answerable fun _ _ hj => hj.settled nofun ⟨rfl, rfl⟩
    exact asked
  settled :=
    { sleep := fun _ _ hs => hs
      kill := fun _ => keeps_noting_answerable nofun
      poll := .imp (fun _ hs => hs) (keeps_noting_answerable nofun) fun _ _ hs => by
        split <;> exact hs
      letGo := fun _ hs => hs }
  weaken := fun _ ⟨events, hevents, hseen⟩ =>
    ⟨events, hevents, hseen.mono (List.subset_cons_self pid held)⟩

theorem charge_journaled (start : Journal) : k.journaled.Charge (Answerable start) where
  quiet held := k.quiet_journaled fun j => ∃ events, j = start ++ events ∧ SeenTo events held
  exec _ _ _ _ := keeps_noting_answerable nofun
  fork _ :=
    .imp (fun _ hs => hs) (ensures_start_answerable k.fork) fun
      | .ok _, _, hs => hs
      | .error _, _, hs => hs
  startReader _ words pipe :=
    .imp (fun _ hs => hs) (ensures_start_answerable (k.startReader words pipe)) fun
      | .ok _, _, hs => hs
      | .error _, _, hs => hs
  await _ _ := ensures_wait_answerable
  poll _ _ := ensures_wait_answerable
  terminate held pid grace := (settling_journaled k start held pid).terminate grace
  reapOrKill held pid grace := (settling_journaled k start held pid).reapOrKill grace

end System
end Journal

namespace Kernel

variable {ω : Type}

/-- When a mount has failed, all that it has started has been seen to, or the
error is one that it passes on as it comes. -/
theorem failed_mount_settles (k : Kernel ω) (c : Config) (d : Directive) (id : Identity)
    (j : Journal) (w : ω) :
    let after := k.journaled.mount c d id (j, w)
    ∃ events, after.2.1 = j ++ events ∧ ∀ e, after.1 = .error e → ¬e.Abandons →
      ∀ before pid since, events = before ++ .forked pid :: since →
        ∃ x ∈ since, x.Settles pid := by
  intro after
  obtain ⟨left, ⟨events, hevents, hseen⟩, hleft⟩ :=
    (Journal.charge_journaled k j).mount [] c d id (j, w) ⟨[], by simp, Journal.seenTo_nil⟩
  refine ⟨events, hevents, fun e he hkept before pid since hsplit => ?_⟩
  have hnone : left = [] := by
    rcases hleft with hnone | ⟨e', he', habandons⟩
    · exact hnone
    · rw [Except.error.inj (he'.symm.trans he)] at habandons
      exact absurd habandons hkept
  have hheld : left ++ (handedOn after.1 ++ []) = [] := by
    rw [hnone, he]
    rfl
  rcases hseen before pid since hsplit with hmem | hsettled
  · have hmem' : pid ∈ left ++ (handedOn after.1 ++ []) := hmem
    rw [hheld] at hmem'
    cases hmem'
  · exact hsettled

end Kernel

/-- A directive for all buckets. -/
def Directive.everything : Directive where
  bucket := .implicit
  path := "/m".toList
  flags := none
  admissible := ⟨trivial, by decide, by decide, by decide, nofun, nofun⟩

namespace Dictation

/-- A mount of which the path is asked for by process 7, the output is read by
process 8, and the worker is process 9. -/
def mountSaying (status : Bytes) (ends : List WaitStatus) :
    Except MountError MountOutcome × Journal × Dictation :=
  kernel.journaled.mount .standard .everything ⟨0, 0, none, []⟩
    ([], ⟨[7, 8, 9], .exited 1 :: ends, [status], [], [], 0⟩)

/-- The worker says that there is no helper to run. -/
def unlaunched : Except MountError MountOutcome × Journal × Dictation :=
  mountSaying (Report.encode ⟨.exec, .enoent⟩) [.exited 125, .exited 0]

/-- The worker writes three bytes of a status and closes the pipe. -/
def cutShort : Except MountError MountOutcome × Journal × Dictation :=
  mountSaying [1, 0, 0] []

end Dictation

theorem Kernel.failed_mount_settles_unlaunched :
    let e : MountError := .exec (.helper "gcsfuse".toList .enoent)
    Dictation.unlaunched.1 = .error e ∧ ¬e.Abandons ∧
      ∃ events, Dictation.unlaunched.2.1 = [] ++ events ∧
        ∀ before pid since, events = before ++ .forked pid :: since →
          ∃ x ∈ since, x.Settles pid := by
  intro e
  have hanswer : Dictation.unlaunched.1 = .error (.exec (.helper "gcsfuse".toList .enoent)) := by
    simp only [Dictation.unlaunched, Dictation.mountSaying, mount, startHelper, followWorker,
      readReport]
    rw [fill_eq_within 2]
    decide +kernel
  obtain ⟨events, hevents, hseen⟩ :=
    failed_mount_settles Dictation.kernel .standard .everything ⟨0, 0, none, []⟩ [] _
  exact ⟨hanswer, id, events, hevents, hseen e hanswer id⟩

/-- A status that is cut short leaves two processes to themselves. -/
theorem Kernel.mount_abandons_truncated :
    Dictation.cutShort.1 = .error (.spawn (.truncatedStatus 9 3)) ∧
      ¬∀ before pid since, Dictation.cutShort.2.1 = before ++ .forked pid :: since →
        ∃ x ∈ since, x.Settles pid := by
  have hrun : (Dictation.cutShort.1, Dictation.cutShort.2.1) =
      (.error (.spawn (.truncatedStatus 9 3)), [.forked 7, .waited 7 (.ok (.exited 1)), .forked 8,
        .forked 9,
        .executed ((Helper.argv .standard ⟨0, 0, none, []⟩ .everything).map Text.toUtf8)]) := by
    simp only [Dictation.cutShort, Dictation.mountSaying, mount, startHelper, followWorker,
      readReport]
    rw [fill_eq_within 2]
    decide +kernel
  obtain ⟨hanswer, hjournal⟩ := Prod.mk.inj hrun
  refine ⟨hanswer, fun hseen => ?_⟩
  obtain ⟨x, hx, hsettles⟩ := hseen [.forked 7, .waited 7 (.ok (.exited 1))] 8 _ hjournal
  rcases List.mem_cons.mp hx with rfl | hx
  · exact hsettles
  · rcases List.mem_singleton.mp hx with rfl
    exact hsettles

end BucketMount
