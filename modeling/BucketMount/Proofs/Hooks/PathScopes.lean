import BucketMount.Proofs.Hooks.CaptureRun
import BucketMount.Proofs.Path
import BucketMount.Proofs.Text.Utf8

/-!
# Scopes by path

A captured list has one bucket scope for each path as it is written, and no
more: `/mnt/x` and `/mnt/x/` are one place and two texts, and may be stored for
two buckets (`captureAll_two_scopes`). Neither the capture nor the resolution
of relative paths looks at the components of a path. Among paths that are
spelled plainly there is no such pair, because a place has one plain spelling
only (`captureAll_one_scope`).
-/

namespace BucketMount

namespace Directive

/-- The path as the system reads it. -/
def place (d : Directive) : Bytes := Text.toUtf8 d.path

theorem head?_place {d : Directive} (h : d.isAbsolute) : d.place.head? = some PathName.slash := by
  rw [isAbsolute, decide_eq_true_eq, List.head?_eq_some_iff] at h
  obtain ⟨rest, hpath⟩ := h
  rw [place, hpath, Text.toUtf8_cons]
  rfl

/-- Two absolute paths with plain spellings are one place only if they are
one text. -/
theorem path_eq_of_same {d e : Directive} (hd : d.isAbsolute) (he : e.isAbsolute)
    (hplain : PathName.Plain d.place) (hplain' : PathName.Plain e.place)
    (hsame : PathName.Same d.place e.place) : d.path = e.path :=
  Text.toUtf8_inj.mp
    (PathName.eq_of_same (head?_place hd) (head?_place he) hplain hplain' hsame)

end Directive

namespace Hooks

open MountList (ofStored)

/-- **One scope for each path.** After any captures into a slot that was empty,
the slot reads as a list in which two directives have the same bucket scope if
their paths are the same text, and also if their paths are the same place and
both are spelled plainly. -/
theorem captureAll_one_scope (capacity : Nat) (requests : List (Text × Bytes)) :
    ∃ l, ofStored (captureAll requests ⟨none, capacity⟩).2.value = .ok l ∧
      ∀ d ∈ l, ∀ e ∈ l,
        (d.path = e.path → d.bucket.scope = e.bucket.scope) ∧
        (PathName.Same d.place e.place → PathName.Plain d.place → PathName.Plain e.place →
          d.bucket.scope = e.bucket.scope) := by
  obtain ⟨_, hholds⟩ := holds_captureAll capacity requests
  obtain ⟨l, hstored⟩ := exists_ofStored_of_holds hholds
  have hsound := sound_of_ofStored hholds hstored
  refine ⟨l, hstored, fun d hd e he => ⟨hsound.scope_eq hd he, ?_⟩⟩
  intro hsame hplain hplain'
  exact hsound.scope_eq hd he
    (Directive.path_eq_of_same (hsound.absolute d hd) (hsound.absolute e he) hplain hplain' hsame)

/-- Two spellings of one place are stored for two buckets. -/
theorem captureAll_two_scopes :
    ∃ l, ofStored (captureAll [("a:/mnt/x".toList, Text.toUtf8 "/".toList),
        ("b:/mnt/x/".toList, Text.toUtf8 "/".toList)] ⟨none, 4096⟩).2.value = .ok l ∧
      ∃ d ∈ l, ∃ e ∈ l, PathName.Same d.place e.place ∧ d.bucket.scope ≠ e.bucket.scope := by
  have hstored : (captureAll [("a:/mnt/x".toList, Text.toUtf8 "/".toList),
      ("b:/mnt/x/".toList, Text.toUtf8 "/".toList)] ⟨none, 4096⟩).2.value =
        some "a:/mnt/x;b:/mnt/x/".toList := by
    decide +kernel
  rw [hstored]
  refine ⟨_, rfl, _, List.mem_cons_self, _, List.mem_cons_of_mem _ List.mem_cons_self, ?_, ?_⟩
  · decide
  · decide

end Hooks
end BucketMount
