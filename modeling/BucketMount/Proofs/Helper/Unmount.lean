import BucketMount.Helper.Unmount
import BucketMount.Proofs.Recorder

/-!
# The last look decides

What is asked of the system when a mount is detached: looks at the path and
commands that are run, which a system can write down (`Kernel.watched`).
`Finding` says what the looks come to, and `Detaching` which looks and commands
follow each other. Every detachment goes one of these ways, and its result is
what its last look says (`unmount_by_last_look`), however the commands have ended
and whatever they have done.
-/

namespace BucketMount

/-- Something that is asked of the system, with the answer. -/
inductive Sighting where
  | inspected (caller : Credentials) (path : Bytes) (answer : Except Errno FileInfo)
  | ran (words : List Bytes) (answer : Except LaunchFault ProcessEnd)

/-- What has been asked, the earliest first. -/
abbrev Sightings := List Sighting

/-- The looks at a path by which it is found to be a mountpoint or not. -/
inductive Finding (path : Bytes) : Bool → Sightings → Prop where
  /-- The endpoint is disconnected, which makes no difference to the parent. -/
  | disconnected (caller : Credentials) :
      Finding path true [.inspected caller path (.error .enotconn)]
  | compared (caller : Credentials) {answer : Except Errno FileInfo}
      (parent : Except Errno FileInfo) (connected : answer ≠ .error .enotconn) :
      Finding path (classify (answer.map FileInfo.ids) (parent.map FileInfo.ids))
        [.inspected caller path answer, .inspected caller (parentPath path) parent]

/-- A command is run once, if it names a program. -/
inductive DetachAttempt (path : Bytes) : List Text → Sightings → Prop where
  | unnamed : DetachAttempt path [] []
  | ran (program : Text) (args : List Text) (answer : Except LaunchFault ProcessEnd) :
      DetachAttempt path (program :: args) [.ran ((program :: args).map Text.toUtf8 ++ [path]) answer]

/-- The ways to detach a path, each with what its last look finds. -/
inductive Detaching (c : Config) (path : Bytes) : Bool → Sightings → Prop where
  | unneeded {looks : Sightings} (first : Finding path false looks) : Detaching c path false looks
  | graceful {looks command again : Sightings} (first : Finding path true looks)
      (attempt : DetachAttempt path c.unmountCommand command) (gone : Finding path false again) :
      Detaching c path false (looks ++ command ++ again)
  | lazy {looks command again command' last : Sightings} {found : Bool}
      (first : Finding path true looks) (attempt : DetachAttempt path c.unmountCommand command)
      (still : Finding path true again) (attempt' : DetachAttempt path c.lazyUnmountCommand command')
      (final : Finding path found last) :
      Detaching c path found (looks ++ command ++ again ++ command' ++ last)

/-- What a detachment answers when its last look finds the path mounted or not. -/
def detachOutcome (path : Bytes) (found : Bool) : Except MountError Unit :=
  if found then .error (.teardown (Text.ofUtf8Lossy path) .stillMounted) else .ok ()

/-- A disconnected endpoint counts as mounted, whatever the parent is. -/
theorem classify_disconnected (parent : Except Errno FileIds) :
    classify (.error .enotconn) parent = true := by
  cases parent <;> rfl

namespace Kernel

variable {ω α : Type}

/-- The system that writes down how it is asked about paths and which commands it runs. -/
def watched (k : Kernel ω) : Kernel (Sightings × ω) :=
  { k.alongside Sightings with
    stat := fun caller path => noting (fun answer => [.inspected caller path answer]) (k.stat caller path)
    run := fun words => noting (fun answer => [.ran words answer]) (k.run words)
    monotone_stat := fun caller path s => k.monotone_stat caller path s.2 }

/-- What is written down, where nothing is to be seen of a state. -/
abbrev Notes (op' : StateM (Sightings × ω) α) (op : StateM ω α) (Q : α → Sightings → Prop) : Prop :=
  Records (fun _ => ()) op' op fun _ added _ a => Q a added

section Looks

variable (k : Kernel ω) {caller : Credentials} {path : Bytes} {w w₁ w₂ : ω}

theorem isMounted_of_disconnected (looked : k.stat caller path w = (.error .enotconn, w₁)) :
    k.isMounted caller path w = (true, w₁) := by
  rw [Files.isMounted, bind_of_eq looked]
  rfl

theorem isMounted_of_connected {answer parent : Except Errno FileInfo}
    (looked : k.stat caller path w = (answer, w₁)) (connected : answer ≠ .error .enotconn)
    (lookedUp : k.stat caller (parentPath path) w₁ = (parent, w₂)) :
    k.isMounted caller path w =
      (classify (answer.map FileInfo.ids) (parent.map FileInfo.ids), w₂) := by
  rw [Files.isMounted, bind_of_eq looked]
  rcases answer with e | info
  · cases e <;> first | exact absurd rfl connected | (dsimp only; rw [bind_of_eq lookedUp]; rfl)
  · dsimp only
    rw [bind_of_eq lookedUp]
    rfl

/-- Whether a path is mounted is what the two answers about it and its parent say. -/
theorem fst_isMounted (caller : Credentials) (path : Bytes) (w : ω) :
    (k.isMounted caller path w).1 =
      classify ((k.stat caller path w).1.map FileInfo.ids)
        ((k.stat caller (parentPath path) (k.stat caller path w).2).1.map FileInfo.ids) := by
  by_cases connected : (k.stat caller path w).1 = .error .enotconn
  · rw [k.isMounted_of_disconnected (Prod.ext connected rfl), connected]
    exact (classify_disconnected _).symm
  · rw [k.isMounted_of_connected rfl connected rfl]

/-- A path is asked about once, or once with its parent. -/
theorem notes_isMounted (caller : Credentials) (path : Bytes) :
    Notes (k.watched.isMounted caller path) (k.isMounted caller path) (Finding path) := by
  intro notes w
  rcases hlooked : k.stat caller path w with ⟨answer, w₁⟩
  have hwatched : k.watched.stat caller path (notes, w) =
      (answer, notes ++ [.inspected caller path answer], w₁) := by
    simp only [watched, noting, recording, hlooked]
  by_cases connected : answer = .error .enotconn
  · subst connected
    rw [k.isMounted_of_disconnected hlooked, k.watched.isMounted_of_disconnected hwatched]
    exact ⟨_, rfl, .disconnected caller⟩
  · rcases hparent : k.stat caller (parentPath path) w₁ with ⟨parent, w₂⟩
    have hwatched' (notes : Sightings) : k.watched.stat caller (parentPath path) (notes, w₁) =
        (parent, notes ++ [.inspected caller (parentPath path) parent], w₂) := by
      simp only [watched, noting, recording, hparent]
    rw [k.isMounted_of_connected hlooked connected hparent,
      k.watched.isMounted_of_connected hwatched connected (hwatched' _), List.append_assoc]
    exact ⟨_, rfl, .compared caller parent connected⟩

theorem notes_isMountedHere (path : Bytes) :
    Notes (k.watched.isMountedHere path) (k.isMountedHere path) (Finding path) :=
  fun notes w => k.notes_isMounted (k.credentials w) path notes w

/-- A command is asked for once, and how it ends makes no difference. -/
theorem notes_detach (command : List Text) (path : Bytes) :
    Notes (k.watched.detach command path) (k.detach command path) fun _ => DetachAttempt path command := by
  intro notes w
  cases command with
  | nil => exact ⟨[], by rw [List.append_nil]; rfl, .unnamed⟩
  | cons program args => exact ⟨_, rfl, .ran program args _⟩

end Looks

section Unmount

/-- A detachment goes one of the three ways, and answers what its last look finds. -/
theorem notes_unmount (k : Kernel ω) (c : Config) (path : Bytes) :
    Notes (k.watched.unmount c path) (k.unmount c path) fun answer added =>
      ∃ found, Detaching c path found added ∧ answer = detachOutcome path found := by
  refine .bind (k.notes_isMountedHere path) fun mounted => ?_
  cases mounted with
  | false =>
    refine .pure fun _ _ looks first => ?_
    rw [List.append_nil]
    exact ⟨false, .unneeded first, rfl⟩
  | true =>
    refine .bind (k.notes_detach c.unmountCommand path) fun _ => ?_
    refine .bind (k.notes_isMountedHere path) fun mounted => ?_
    cases mounted with
    | false =>
      refine .pure fun _ _ again gone _ command attempt _ looks first => ?_
      rw [List.append_nil, ← List.append_assoc]
      exact ⟨false, .graceful first attempt gone, rfl⟩
    | true =>
      refine .bind (k.notes_detach c.lazyUnmountCommand path) fun _ => ?_
      refine .bind (k.notes_isMountedHere path) fun found => ?_
      have lazily {looks command again command' last : Sightings} (final : Finding path found last)
          (attempt' : DetachAttempt path c.lazyUnmountCommand command')
          (still : Finding path true again) (attempt : DetachAttempt path c.unmountCommand command)
          (first : Finding path true looks) :
          Detaching c path found (looks ++ (command ++ (again ++ (command' ++ (last ++ []))))) := by
        simpa using Detaching.lazy first attempt still attempt' final
      cases found with
      | false =>
        refine .pure fun _ _ last final _ _ attempt' _ _ still _ _ attempt _ _ first => ?_
        exact ⟨false, lazily final attempt' still attempt first, rfl⟩
      | true =>
        refine .pure fun _ _ last final _ _ attempt' _ _ still _ _ attempt _ _ first => ?_
        exact ⟨true, lazily final attempt' still attempt first, rfl⟩

/-- What is asked to detach a path, and that nothing but the last look decides. -/
theorem unmount_by_last_look (k : Kernel ω) (c : Config) (path : Bytes) :
    (∀ caller w, (k.isMounted caller path w).1 =
      classify ((k.stat caller path w).1.map FileInfo.ids)
        ((k.stat caller (parentPath path) (k.stat caller path w).2).1.map FileInfo.ids)) ∧
    (∀ parent, classify (.error .enotconn) parent = true) ∧
    ∀ notes w, ∃ found added, Detaching c path found added ∧
      (k.unmount c path w).1 = detachOutcome path found ∧
      k.watched.unmount c path (notes, w) =
        (detachOutcome path found, notes ++ added, (k.unmount c path w).2) := by
  refine ⟨fun caller w => k.fst_isMounted caller path w, classify_disconnected, fun notes w => ?_⟩
  obtain ⟨added, hwatched, found, hdetaching, hanswer⟩ := k.notes_unmount c path notes w
  rw [hanswer] at hwatched
  exact ⟨found, added, hdetaching, hanswer, hwatched⟩

end Unmount
end Kernel
end BucketMount
