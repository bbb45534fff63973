import BucketMount.MountList.Resolution
import BucketMount.Proofs.MountList.RoundTrip
import BucketMount.Proofs.Text.Utf8
import Mathlib.Data.List.DropRight

/-!
# Resolved directives

What `Directive.resolve` answers (`resolve_eq_ok_iff`), and that it leaves no
relative path behind. A resolved directive is therefore encodable, whatever
the directive was before (`encodable_of_resolveAll`), and resolving it against
any other base changes nothing.

A base is the UTF-8 form of an absolute path with any number of slashes at its
end (`IsBase`). Whether a relative path can be put under it depends on the base
alone: what the directive brings is free of separators (`resolve_exact`).
-/

namespace BucketMount

/-! ## Paths under a base -/

/-- What is left of a text when the `c`s at its end are cut off. -/
theorem Text.trimEnd_eq_iff {c : Char} {t u : Text} :
    trimEnd c t = u ↔ u.getLast? ≠ some c ∧ ∃ n, t = u ++ List.replicate n c := by
  have hdrop : trimEnd c t = t.rdropWhile (· = c) := rfl
  rw [hdrop]
  constructor
  · rintro rfl
    refine ⟨?_, (t.rtakeWhile (· = c)).length, ?_⟩
    · intro hlast
      have hne : t.rdropWhile (· = c) ≠ [] := by
        rintro hnil
        simp [hnil] at hlast
      rw [List.getLast?_eq_some_getLast hne] at hlast
      exact List.rdropWhile_last_not _ _ hne (by simpa using hlast)
    · have hcut : t.rtakeWhile (· = c) = List.replicate (t.rtakeWhile (· = c)).length c :=
        List.eq_replicate_of_mem fun d hd => by simpa using List.mem_rtakeWhile_imp hd
      rw [← hcut, List.rdropWhile_append_rtakeWhile]
  · rintro ⟨hlast, n, rfl⟩
    induction n with
    | zero =>
      rw [List.replicate_zero, List.append_nil, List.rdropWhile_eq_self_iff]
      intro hne heq
      exact hlast (by rw [List.getLast?_eq_some_getLast hne]; simpa using heq)
    | succ n ih =>
      rw [List.replicate_succ', ← List.append_assoc, List.rdropWhile_concat_pos _ _ _ (by simp)]
      exact ih rfl

theorem Text.withoutDotSlash_cases (path : Text) :
    path = '.' :: '/' :: withoutDotSlash path ∨
      withoutDotSlash path = path ∧ ¬['.', '/'] <+: path := by
  unfold withoutDotSlash
  split
  · exact Or.inl rfl
  · rename_i hpath
    refine Or.inr ⟨rfl, ?_⟩
    rintro ⟨t, ht⟩
    exact hpath t ht.symm

theorem Text.withoutDotSlash_suffix (path : Text) : withoutDotSlash path <:+ path := by
  rcases withoutDotSlash_cases path with hcut | ⟨hsame, -⟩
  · exact ⟨['.', '/'], hcut.symm⟩
  · rw [hsame]

/-- A path under a directory that is absolute is absolute too. -/
theorem Text.head?_under {base : Text} (h : base.head? = some '/') (path : Text) :
    (under base path).head? = some '/' := by
  unfold under
  obtain ⟨_, n, hbase⟩ := Text.trimEnd_eq_iff.mp (rfl : trimEnd '/' base = _)
  cases htrim : trimEnd '/' base with
  | nil => rfl
  | cons c t =>
    -- what is left of the base is a start of it
    rw [htrim] at hbase
    rw [hbase] at h
    simpa using h

/-! ## Bases -/

theorem baseDirectory_eq_ok_iff {base : Bytes} {t : Text} :
    baseDirectory base = .ok t ↔ base = Text.toUtf8 t ∧ t.head? = some '/' := by
  rw [eq_comm (a := base), ← Text.ofUtf8?_eq_some_iff, baseDirectory]
  cases Text.ofUtf8? base with
  | none => simp
  | some t' =>
    by_cases hhead : t'.head? = some '/'
    · simp only [if_pos hhead, Except.ok.injEq, Option.some.injEq]
      exact ⟨fun h => ⟨h, h ▸ hhead⟩, And.left⟩
    · simp only [if_neg hhead, reduceCtorEq, Option.some.injEq, false_iff, not_and]
      exact fun h => h ▸ hhead

theorem baseDirectory_eq_error {base : Bytes} {e : MountError}
    (h : baseDirectory base = .error e) :
    e = .config (.baseNotText base) ∨ ∃ t, e = .config (.baseNotAbsolute t) := by
  unfold baseDirectory at h
  split at h
  · cases h
    exact Or.inl rfl
  · rename_i t _
    split at h
    · cases h
    · cases h
      exact Or.inr ⟨t, rfl⟩

/-! ## Directives -/

namespace Directive

theorem withPath_eq_ok_iff {d e : Directive} {path : Text} :
    d.withPath path = .ok e ↔ e.bucket = d.bucket ∧ e.path = path ∧ e.flags = d.flags := by
  unfold withPath
  rw [make_eq_ok_iff, keepFlags_flags]

/-- An absolute path stays; a relative one is put under the base. -/
theorem resolve_eq_ok_iff {base : Bytes} {d e : Directive} :
    d.resolve base = .ok e ↔
      (d.isAbsolute ∧ e = d) ∨
      (¬d.isAbsolute ∧ ∃ t, baseDirectory base = .ok t ∧
        e.bucket = d.bucket ∧ e.path = Text.under t d.path ∧ e.flags = d.flags) := by
  unfold resolve
  by_cases habs : d.isAbsolute
  · simp [habs, eq_comm]
  · rw [if_neg habs]
    simp only [bind_eq_ok_iff, withPath_eq_ok_iff]
    constructor
    · rintro ⟨t, ht, hfields⟩
      exact Or.inr ⟨habs, t, ht, hfields⟩
    · rintro (⟨h, _⟩ | ⟨_, t, ht, hfields⟩)
      · exact absurd h habs
      · exact ⟨t, ht, hfields⟩

/-- What is wrong with a directive that cannot be resolved lies in the base
or in the path that would result. -/
theorem resolve_eq_error {base : Bytes} {d : Directive} {e : MountError}
    (h : d.resolve base = .error e) :
    baseDirectory base = .error e ∨ ∃ field reason, e = .parse field reason := by
  unfold resolve at h
  split at h
  · cases h
  · rcases bind_eq_error_iff.mp h with h | ⟨t, _, h⟩
    · exact Or.inl h
    · exact Or.inr (exists_of_make_eq_error h)

theorem isAbsolute_of_resolve {base : Bytes} {d e : Directive}
    (h : d.resolve base = .ok e) : e.isAbsolute := by
  rcases resolve_eq_ok_iff.mp h with ⟨habs, rfl⟩ | ⟨_, t, ht, _, hpath, _⟩
  · exact habs
  · rw [isAbsolute, decide_eq_true_eq, hpath]
    exact Text.head?_under (baseDirectory_eq_ok_iff.mp ht).2 _

end Directive

/-! ## Lists -/

namespace MountList

theorem isAbsolute_of_resolveAll {base : Bytes} {l m : MountList}
    (h : resolveAll base l = .ok m) : ∀ d ∈ m, d.isAbsolute := by
  intro e he
  obtain ⟨d, _, hd⟩ := exists_of_mem_of_mapM_eq_ok h he
  exact Directive.isAbsolute_of_resolve hd

theorem encodable_of_resolveAll {base : Bytes} {l m : MountList}
    (h : resolveAll base l = .ok m) : ∀ d ∈ m, d.Encodable := by
  intro d hd
  exact Directive.encodable_of_isAbsolute (isAbsolute_of_resolveAll h d hd)

/-- What has been resolved stays as it is, even against a base that is none. -/
theorem resolveAll_resolveAll {base base' : Bytes} {l m : MountList}
    (h : resolveAll base l = .ok m) : resolveAll base' m = .ok m := by
  apply mapM_self_eq_ok
  intro d hd
  exact Directive.resolve_eq_ok_iff.mpr (Or.inl ⟨isAbsolute_of_resolveAll h d hd, rfl⟩)

end MountList

/-! ## When a relative path can be resolved -/

/-- The bytes of a base: the UTF-8 form of an absolute path, which is `dir`
without the slashes at its end. -/
def IsBase (base : Bytes) (dir : Text) : Prop :=
  dir.getLast? ≠ some '/' ∧ ∃ slashes : Nat,
    base = Text.toUtf8 (dir ++ List.replicate slashes '/') ∧
    (dir ++ List.replicate slashes '/').head? = some '/'

theorem isBase_iff {base : Bytes} {dir : Text} :
    IsBase base dir ↔ ∃ t, baseDirectory base = .ok t ∧ Text.trimEnd '/' t = dir := by
  simp only [baseDirectory_eq_ok_iff, Text.trimEnd_eq_iff]
  constructor
  · rintro ⟨hlast, slashes, hbytes, hhead⟩
    exact ⟨_, ⟨hbytes, hhead⟩, hlast, slashes, rfl⟩
  · rintro ⟨_, ⟨hbytes, hhead⟩, hlast, slashes, rfl⟩
    exact ⟨hlast, slashes, hbytes, hhead⟩

namespace Directive

variable {base : Bytes} {d e : Directive}

theorem resolve_eq_ok_iff_of_not_isAbsolute (hrel : ¬d.isAbsolute) :
    d.resolve base = .ok e ↔ ∃ dir, IsBase base dir ∧ e.bucket = d.bucket ∧
      e.flags = d.flags ∧ e.path = dir ++ '/' :: Text.withoutDotSlash d.path := by
  rw [resolve_eq_ok_iff, or_iff_right fun h => hrel h.1, and_iff_right hrel]
  simp only [isBase_iff]
  constructor
  · rintro ⟨t, ht, hbucket, hpath, hflags⟩
    exact ⟨_, ⟨t, ht, rfl⟩, hbucket, hflags, hpath⟩
  · rintro ⟨_, ⟨t, ht, rfl⟩, hbucket, hflags, hpath⟩
    exact ⟨t, ht, hbucket, hpath, hflags⟩

/-- A relative path can be put under a base that is free of separators. -/
theorem exists_resolve_iff (hrel : ¬d.isAbsolute) :
    (∃ e, d.resolve base = .ok e) ↔ ∃ dir, IsBase base dir ∧ ':' ∉ dir ∧ ';' ∉ dir := by
  simp only [resolve_eq_ok_iff_of_not_isAbsolute hrel]
  constructor
  · rintro ⟨e, dir, hbase, _, _, hpath⟩
    have hcolon := e.admissible.colon_notMem_path
    have hsemicolon := e.admissible.semicolon_notMem_path
    rw [hpath, List.mem_append, not_or] at hcolon hsemicolon
    exact ⟨dir, hbase, hcolon.1, hsemicolon.1⟩
  · rintro ⟨dir, hbase, hcolon, hsemicolon⟩
    have hsuffix := (Text.withoutDotSlash_suffix d.path).subset
    have hadm : Admissible d.bucket (dir ++ '/' :: Text.withoutDotSlash d.path) d.flags :=
      { d.admissible with
        path_ne_nil := by simp
        colon_notMem_path := by
          simpa [hcolon] using fun h => d.admissible.colon_notMem_path (hsuffix h)
        semicolon_notMem_path := by
          simpa [hsemicolon] using fun h => d.admissible.semicolon_notMem_path (hsuffix h) }
    exact ⟨⟨_, _, _, hadm⟩, dir, hbase, rfl, rfl, rfl⟩

end Directive

/-- **Exact resolution.** A directive with an absolute path stays as it is,
whatever the base. One with a relative path can be resolved exactly if the base
is the UTF-8 form of an absolute path that, without the slashes at its end, has
no colon and no semicolon; bucket and flags are kept, and the path is put under
the base, without one leading `./`. What results is absolute, and encodable
whether or not the directive was. A list can be resolved exactly if each of its
entries can; the results stand in the same order, and resolving them against any
other bytes gives them back. -/
theorem resolve_exact (base : Bytes) :
    (∀ d : Directive, d.isAbsolute → d.resolve base = .ok d) ∧
    (∀ d : Directive, ¬d.isAbsolute →
      ((∃ e, d.resolve base = .ok e) ↔ ∃ dir, IsBase base dir ∧ ':' ∉ dir ∧ ';' ∉ dir) ∧
      ∀ e, d.resolve base = .ok e ↔ ∃ dir, IsBase base dir ∧ e.bucket = d.bucket ∧
        e.flags = d.flags ∧ e.path = dir ++ '/' :: Text.withoutDotSlash d.path) ∧
    (∀ path : Text, path = '.' :: '/' :: Text.withoutDotSlash path ∨
      Text.withoutDotSlash path = path ∧ ¬['.', '/'] <+: path) ∧
    (∀ d e : Directive, d.resolve base = .ok e → e.isAbsolute ∧ e.Encodable) ∧
    ∀ l : MountList,
      ((∃ m, MountList.resolveAll base l = .ok m) ↔ ∀ d ∈ l, ∃ e, d.resolve base = .ok e) ∧
      ∀ m, MountList.resolveAll base l = .ok m →
        List.Forall₂ (fun d e => d.resolve base = .ok e) l m ∧ m.length = l.length ∧
        ∀ base', MountList.resolveAll base' m = .ok m := by
  refine ⟨?_, ?_, Text.withoutDotSlash_cases, ?_, ?_⟩
  · intro d habs
    exact Directive.resolve_eq_ok_iff.mpr (Or.inl ⟨habs, rfl⟩)
  · intro d hrel
    exact ⟨Directive.exists_resolve_iff hrel,
      fun e => Directive.resolve_eq_ok_iff_of_not_isAbsolute hrel⟩
  · intro d e h
    have habs := Directive.isAbsolute_of_resolve h
    exact ⟨habs, Directive.encodable_of_isAbsolute habs⟩
  · intro l
    refine ⟨exists_mapM_eq_ok_iff, ?_⟩
    intro m hm
    have hall := mapM_eq_ok_iff.mp hm
    exact ⟨hall, hall.length_eq.symm, fun base' => MountList.resolveAll_resolveAll hm⟩

-- a base of slashes only is the root
example : IsBase [0x2F, 0x2F] [] := ⟨by decide, 2, rfl, rfl⟩

end BucketMount
