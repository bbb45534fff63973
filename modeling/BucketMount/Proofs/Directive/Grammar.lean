import BucketMount.MountList.Wire
import BucketMount.Proofs.Fallible

/-!
# The grammar of a token

`Spells` lists the ways in which a token spells the fields of a directive;
`parse_eq_ok_iff` says that the reader knows these ways and no others. Which
way applies is decided by what stands before the first colon: a slash there
makes it a path, and without one it is a bucket name. What a token without a
semicolon spells has no fault, so such a token is refused only as a whole
(`parse_eq_error`).

The token that is written for a directive is read back as the directive
exactly if it is encodable (`parse_token_iff`). This is the only place where
the written form can go wrong: a bare path without a slash, followed by flags.
-/

namespace BucketMount

/-- What the bucket field before the first colon stands for. -/
def Bucket.ofField (field : Text) : Bucket :=
  if field = [] then all else named field

@[simp] theorem Bucket.ofField_nil : ofField [] = all := rfl

theorem Bucket.ofField_of_ne_nil {field : Text} (h : field ≠ []) :
    ofField field = named field :=
  if_neg h

theorem Bucket.ofField_ne_implicit (field : Text) : ofField field ≠ implicit := by
  unfold ofField
  split <;> simp

namespace Directive

/-- The ways in which a token spells a bucket, a path and flags. Flags that
are there may be empty. -/
inductive Spells : Text → Bucket → Text → Option Text → Prop where
  | bare {path : Text} (colon : ':' ∉ path) (path_ne_nil : path ≠ []) :
      Spells path .implicit path none
  | bareFlags {path flags : Text} (colon : ':' ∉ path) (slash : '/' ∈ path) :
      Spells (path ++ ':' :: flags) .implicit path (some flags)
  | field {field path : Text} (colon : ':' ∉ field) (slash : '/' ∉ field)
      (colon_path : ':' ∉ path) (path_ne_nil : path ≠ []) :
      Spells (field ++ ':' :: path) (.ofField field) path none
  | fieldFlags {field path flags : Text} (colon : ':' ∉ field) (slash : '/' ∉ field)
      (colon_path : ':' ∉ path) (path_ne_nil : path ≠ []) :
      Spells (field ++ ':' :: (path ++ ':' :: flags)) (.ofField field) path (some flags)

/-! ## Fields that a directive keeps -/

theorem keepFlags_some_eq (flags : Text) :
    keepFlags (some flags) = if flags = [] then none else some flags := by
  by_cases h : flags = [] <;> simp [keepFlags, h]

theorem keepFlags_some {flags : Text} (h : flags ≠ []) :
    keepFlags (some flags) = some flags := by
  rw [keepFlags_some_eq, if_neg h]

/-- The flags of a directive are kept as they are. -/
theorem keepFlags_flags (d : Directive) : keepFlags d.flags = d.flags := by
  have hne := d.admissible.flags_ne_nil
  cases hflags : d.flags with
  | none => rfl
  | some flags =>
    apply keepFlags_some
    rintro rfl
    exact hne hflags

theorem admissible_name {d : Directive} {name : Text} (h : d.bucket = .named name) :
    name ≠ [] ∧ ':' ∉ name ∧ ';' ∉ name ∧ '/' ∉ name := by
  have hadm := d.admissible.bucket
  rw [h] at hadm
  obtain ⟨hne, hchars⟩ := hadm
  refine ⟨hne, ?_, ?_, ?_⟩ <;>
  · intro hmem
    exact hchars _ hmem (by decide)

/-! ## The reader knows exactly the ways to spell a directive -/

/-- A token that spells some fields is read as the directive with these. -/
theorem parse_eq_make {t path : Text} {bucket : Bucket} {flags : Option Text}
    (h : Spells t bucket path flags) : parse t = make bucket path flags := by
  cases h with
  | bare colon path_ne_nil =>
    simp only [parse, Text.splitOnce_eq_none_iff.mpr colon, if_neg path_ne_nil]
  | bareFlags colon slash =>
    simp only [parse, Text.splitOnce_eq_some_iff.mpr ⟨rfl, colon⟩, if_pos slash]
  | field colon slash colon_path path_ne_nil =>
    simp only [parse, Text.splitOnce_eq_some_iff.mpr ⟨rfl, colon⟩, if_neg slash,
      Text.splitOnce_eq_none_iff.mpr colon_path, if_neg path_ne_nil]
    rfl
  | fieldFlags colon slash colon_path path_ne_nil =>
    simp only [parse, Text.splitOnce_eq_some_iff.mpr ⟨rfl, colon⟩, if_neg slash,
      Text.splitOnce_eq_some_iff.mpr ⟨rfl, colon_path⟩, if_neg path_ne_nil]
    rfl

/-- A token whose bucket field is followed by no path: nothing comes after its
colon, or at once the colon before the flags. -/
def Pathless (t : Text) : Prop :=
  ∃ field rest, t = field ++ ':' :: rest ∧ ':' ∉ field ∧ '/' ∉ field ∧
    (rest = [] ∨ rest.head? = some ':')

/-- A text that is no token at all or lacks its path; every other one spells
some fields. -/
theorem spells_cases (t : Text) :
    t = [] ∨ Pathless t ∨ ∃ bucket path flags, Spells t bucket path flags := by
  cases hcut : Text.splitOnce ':' t with
  | none =>
    have hcolon := Text.splitOnce_eq_none_iff.mp hcut
    by_cases hne : t = []
    · exact Or.inl hne
    · exact Or.inr (Or.inr ⟨_, _, _, .bare hcolon hne⟩)
  | some cut =>
    obtain ⟨head, rest⟩ := cut
    obtain ⟨rfl, hcolon⟩ := Text.splitOnce_eq_some_iff.mp hcut
    by_cases hslash : '/' ∈ head
    · exact Or.inr (Or.inr ⟨_, _, _, .bareFlags hcolon hslash⟩)
    · -- what follows the bucket field is cut once more, at the colon before the flags
      cases hcut' : Text.splitOnce ':' rest with
      | none =>
        have hcolon' := Text.splitOnce_eq_none_iff.mp hcut'
        by_cases hne : rest = []
        · exact Or.inr (Or.inl ⟨head, rest, rfl, hcolon, hslash, Or.inl hne⟩)
        · exact Or.inr (Or.inr ⟨_, _, _, .field hcolon hslash hcolon' hne⟩)
      | some cut' =>
        obtain ⟨path, flags⟩ := cut'
        obtain ⟨rfl, hcolon'⟩ := Text.splitOnce_eq_some_iff.mp hcut'
        by_cases hne : path = []
        · subst hne
          exact Or.inr (Or.inl ⟨head, _, rfl, hcolon, hslash, Or.inr rfl⟩)
        · exact Or.inr (Or.inr ⟨_, _, _, .fieldFlags hcolon hslash hcolon' hne⟩)

theorem parse_of_pathless {t : Text} (h : Pathless t) :
    parse t = .error (.parse t .noPathAfterBucket) := by
  obtain ⟨field, rest, rfl, hcolon, hslash, hrest⟩ := h
  simp only [parse, Text.splitOnce_eq_some_iff.mpr ⟨rfl, hcolon⟩, if_neg hslash]
  cases rest with
  | nil => rfl
  | cons c rest =>
    -- the second cut is made at once, and leaves no path before it
    obtain rfl : c = ':' := by simpa using hrest
    rfl

/-- A token that spells no fields is refused under its own name. -/
theorem parse_cases (t : Text) :
    (∃ reason, parse t = .error (.parse t reason)) ∨
      ∃ bucket path flags, Spells t bucket path flags := by
  rcases spells_cases t with rfl | hpathless | hspells
  · exact Or.inl ⟨.emptySpecification, rfl⟩
  · exact Or.inl ⟨.noPathAfterBucket, parse_of_pathless hpathless⟩
  · exact Or.inr hspells

/-- A token is read as a directive exactly if it spells its fields. -/
theorem parse_eq_ok_iff {t : Text} {d : Directive} :
    parse t = .ok d ↔ ∃ flags, Spells t d.bucket d.path flags ∧ d.flags = keepFlags flags := by
  constructor
  · intro h
    rcases parse_cases t with ⟨reason, herror⟩ | ⟨bucket, path, flags, hspells⟩
    · rw [herror] at h
      cases h
    · rw [parse_eq_make hspells] at h
      obtain ⟨rfl, rfl, hflags⟩ := make_eq_ok_iff.mp h
      exact ⟨flags, hspells, hflags⟩
  · rintro ⟨flags, hspells, hflags⟩
    rw [parse_eq_make hspells]
    exact make_eq_ok_iff.mpr ⟨rfl, rfl, hflags⟩

/-- Fields are refused with a reason of the grammar. -/
theorem exists_of_make_eq_error {bucket : Bucket} {path : Text} {flags : Option Text}
    {e : MountError} (h : make bucket path flags = .error e) :
    ∃ field reason, e = .parse field reason := by
  unfold make at h
  split at h
  · rename_i field reason _
    cases h
    exact ⟨field, reason, rfl⟩
  · cases h

theorem exists_of_parse_eq_error {t : Text} {e : MountError} (h : parse t = .error e) :
    ∃ field reason, e = .parse field reason := by
  rcases parse_cases t with ⟨reason, herror⟩ | ⟨bucket, path, flags, hspells⟩
  · rw [herror] at h
    cases h
    exact ⟨t, reason, rfl⟩
  · rw [parse_eq_make hspells] at h
    exact exists_of_make_eq_error h

/-! ## Tokens without a semicolon -/

theorem exists_make_eq_ok {bucket : Bucket} {path : Text} {flags : Option Text}
    (h : Admissible bucket path (keepFlags flags)) : ∃ d, make bucket path flags = .ok d :=
  ⟨⟨bucket, path, keepFlags flags, h⟩, make_eq_ok_iff.mpr ⟨rfl, rfl, rfl⟩⟩

/-- A piece of a token is kept as flags only if it is not empty. -/
theorem keepFlags_ne_nil (flags : Option Text) : keepFlags flags ≠ some [] := by
  cases flags <;> simp [keepFlags]

theorem mem_of_mem_keepFlags {flags : Option Text} {f : Text} (h : f ∈ keepFlags flags) :
    flags = some f := by
  cases flags with
  | none => cases h
  | some flags =>
    simp only [keepFlags, Option.mem_def, Option.filter_eq_some_iff] at h
    exact h.1

theorem admissible_ofField {field : Text} (hcolon : ':' ∉ field) (hsemicolon : ';' ∉ field)
    (hslash : '/' ∉ field) : (Bucket.ofField field).Admissible := by
  unfold Bucket.ofField
  split
  · trivial
  · rename_i hne
    refine ⟨hne, ?_⟩
    intro c hc hforbidden
    simp only [Bucket.isForbidden, Bool.or_eq_true, decide_eq_true_eq] at hforbidden
    rcases hforbidden with (rfl | rfl) | rfl
    · exact hcolon hc
    · exact hsemicolon hc
    · exact hslash hc

/-- What a token without a semicolon spells can be kept. -/
theorem Spells.admissible {t path : Text} {bucket : Bucket} {flags : Option Text}
    (h : Spells t bucket path flags) (hsemicolon : ';' ∉ t) :
    Admissible bucket path (keepFlags flags) := by
  have hkept : ∀ {flags' : Option Text}, (∀ f, flags' = some f → ';' ∉ f) →
      ∀ f ∈ keepFlags flags', ';' ∉ f :=
    fun hflags f hf => hflags f (mem_of_mem_keepFlags hf)
  cases h with
  | bare colon path_ne_nil =>
    exact ⟨trivial, path_ne_nil, colon, hsemicolon, keepFlags_ne_nil _, hkept (by simp)⟩
  | @bareFlags _ flags colon slash =>
    simp only [List.mem_append, List.mem_cons, not_or] at hsemicolon
    obtain ⟨hpath, _, hflags⟩ := hsemicolon
    refine ⟨trivial, List.ne_nil_of_mem slash, colon, hpath, keepFlags_ne_nil _, hkept ?_⟩
    rintro _ ⟨⟩
    exact hflags
  | field colon slash colon_path path_ne_nil =>
    simp only [List.mem_append, List.mem_cons, not_or] at hsemicolon
    obtain ⟨hfield, _, hpath⟩ := hsemicolon
    exact ⟨admissible_ofField colon hfield slash, path_ne_nil, colon_path, hpath,
      keepFlags_ne_nil _, hkept (by simp)⟩
  | @fieldFlags _ _ flags colon slash colon_path path_ne_nil =>
    simp only [List.mem_append, List.mem_cons, not_or] at hsemicolon
    obtain ⟨hfield, _, hpath, _, hflags⟩ := hsemicolon
    refine ⟨admissible_ofField colon hfield slash, path_ne_nil, colon_path, hpath,
      keepFlags_ne_nil _, hkept ?_⟩
    rintro _ ⟨⟩
    exact hflags

/-- A token without a semicolon that is no directive is refused under its own name. -/
theorem parse_eq_error {t : Text} {e : MountError} (hsemicolon : ';' ∉ t)
    (h : parse t = .error e) : ∃ reason, e = .parse t reason := by
  rcases parse_cases t with ⟨reason, herror⟩ | ⟨bucket, path, flags, hspells⟩
  · cases h.symm.trans herror
    exact ⟨reason, rfl⟩
  · obtain ⟨d, hd⟩ := exists_make_eq_ok (hspells.admissible hsemicolon)
    rw [parse_eq_make hspells, hd] at h
    cases h

/-! ## Encodable directives are the ones that are read back -/

theorem encodable_of_spells {t : Text} {d : Directive} {flags : Option Text}
    (h : Spells t d.bucket d.path flags) (hflags : d.flags = keepFlags flags) :
    d.Encodable := by
  rintro ⟨hbucket, hsome, hslash⟩
  generalize d.path = path at h hslash
  generalize d.bucket = bucket at h hbucket
  cases h with
  | bare colon path_ne_nil => exact hsome hflags
  | bareFlags colon slash => exact hslash slash
  | field colon slash colon_path path_ne_nil => exact Bucket.ofField_ne_implicit _ hbucket
  | fieldFlags colon slash colon_path path_ne_nil => exact Bucket.ofField_ne_implicit _ hbucket

/-- Whatever is read can be written and read again. -/
theorem encodable_of_parse {t : Text} {d : Directive} (h : parse t = .ok d) :
    d.Encodable := by
  obtain ⟨flags, hspells, hflags⟩ := parse_eq_ok_iff.mp h
  exact encodable_of_spells hspells hflags

theorem encodable_of_isAbsolute {d : Directive} (h : d.isAbsolute) : d.Encodable := by
  rintro ⟨_, _, hslash⟩
  apply hslash
  rw [isAbsolute, decide_eq_true_eq] at h
  exact List.mem_of_mem_head? h

theorem spells_token {d : Directive} (h : d.Encodable) :
    Spells d.token d.bucket d.path d.flags := by
  have hcolon := d.admissible.colon_notMem_path
  have hne := d.admissible.path_ne_nil
  unfold token
  cases hbucket : d.bucket with
  | implicit =>
    cases hflags : d.flags with
    | none => simpa using Spells.bare hcolon hne
    | some flags =>
      have hslash : '/' ∈ d.path := by
        by_contra hno
        exact h ⟨hbucket, by simp [hflags], hno⟩
      simpa using Spells.bareFlags hcolon hslash
  | all =>
    cases hflags : d.flags with
    | none => simpa using @Spells.field [] _ (by simp) (by simp) hcolon hne
    | some flags => simpa using @Spells.fieldFlags [] _ flags (by simp) (by simp) hcolon hne
  | named name =>
    obtain ⟨hname, hncolon, _, hnslash⟩ := admissible_name hbucket
    have hfield := Bucket.ofField_of_ne_nil hname
    cases hflags : d.flags with
    | none => simpa [hfield] using Spells.field hncolon hnslash hcolon hne
    | some flags => simpa [hfield] using Spells.fieldFlags hncolon hnslash hcolon hne

/-- The token of a directive is read back as the directive exactly if it is
encodable. -/
theorem parse_token_iff {d : Directive} : parse d.token = .ok d ↔ d.Encodable := by
  constructor
  · exact encodable_of_parse
  · intro h
    exact parse_eq_ok_iff.mpr ⟨d.flags, spells_token h, (keepFlags_flags d).symm⟩

-- without a slash before the colon, what was a path becomes a bucket name
example : parse "data:--f".toList = make (.named "data".toList) "--f".toList none := rfl

theorem token_ne_nil (d : Directive) : d.token ≠ [] := by
  simp [token, d.admissible.path_ne_nil]

theorem semicolon_notMem_token (d : Directive) : ';' ∉ d.token := by
  have hpath := d.admissible.semicolon_notMem_path
  have hflags : ∀ flags, d.flags = some flags → ';' ∉ flags :=
    fun flags h => d.admissible.semicolon_notMem_flags flags h
  unfold token
  simp only [List.mem_append, not_or]
  refine ⟨⟨?_, hpath⟩, ?_⟩
  · cases hbucket : d.bucket with
    | implicit => simp
    | all => simp
    | named name =>
      obtain ⟨_, _, hsemicolon, _⟩ := admissible_name hbucket
      simp [hsemicolon]
  · cases hsome : d.flags with
    | none => simp
    | some flags => simp [hflags flags hsome]

end Directive
end BucketMount
