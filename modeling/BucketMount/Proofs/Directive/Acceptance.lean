import BucketMount.Proofs.MountList.Characters

/-!
# Which texts are tokens

The ways to spell a directive say which fields a token stands for. Here they
are turned into an exact account of the reader: what it accepts, with which
fields, and what it refuses (`parse_exact`). A semicolon never gets through,
because each field of a directive is free of it and the token has nothing but
these fields and colons. Without a semicolon only two kinds of text are left
to refuse, the empty one and one that lacks its path (`refused_iff`).
-/

namespace BucketMount.Directive

variable {t : Text} {d : Directive}

theorem semicolon_notMem_of_parse (h : parse t = .ok d) : ';' ∉ t :=
  fun hmem => d.semicolon_notMem_token ((mem_token_iff_of_parse (by decide) h).mpr hmem)

theorem exists_parse_iff {bucket : Bucket} {path : Text} {flags : Option Text} :
    (∃ d, parse t = .ok d ∧ d.bucket = bucket ∧ d.path = path ∧ d.flags = flags) ↔
      ';' ∉ t ∧ ∃ raw, Spells t bucket path raw ∧ flags = keepFlags raw := by
  constructor
  · rintro ⟨d, hd, rfl, rfl, rfl⟩
    exact ⟨semicolon_notMem_of_parse hd, parse_eq_ok_iff.mp hd⟩
  · rintro ⟨hsemicolon, raw, hspells, rfl⟩
    -- the checks of the constructor refuse no fields that a token spells
    obtain ⟨d, hd⟩ := exists_make_eq_ok (hspells.admissible hsemicolon)
    obtain ⟨hbucket, hpath, hflags⟩ := make_eq_ok_iff.mp hd
    exact ⟨d, (parse_eq_make hspells).trans hd, hbucket, hpath, hflags⟩

/-- Without a semicolon, a text is refused if it is empty or lacks its path. -/
theorem refused_iff (hsemicolon : ';' ∉ t) :
    (∃ e, parse t = .error e) ↔ t = [] ∨ Pathless t := by
  constructor
  · rintro ⟨e, he⟩
    rcases spells_cases t with hnil | hpathless | ⟨_, _, _, hspells⟩
    · exact Or.inl hnil
    · exact Or.inr hpathless
    · obtain ⟨d, hd⟩ := exists_make_eq_ok (hspells.admissible hsemicolon)
      rw [parse_eq_make hspells, hd] at he
      cases he
  · rintro (rfl | hpathless)
    · exact ⟨_, rfl⟩
    · exact ⟨_, parse_of_pathless hpathless⟩

theorem exists_spells_iff {bucket : Bucket} {path : Text} {flags : Option Text} :
    (∃ raw, Spells t bucket path raw ∧ flags = keepFlags raw) ↔
      (t ≠ [] ∧ ':' ∉ t ∧ bucket = .implicit ∧ path = t ∧ flags = none) ∨
      (∃ rest, t = path ++ ':' :: rest ∧ ':' ∉ path ∧ '/' ∈ path ∧ bucket = .implicit ∧
        flags = if rest = [] then none else some rest) ∨
      ∃ field, ':' ∉ field ∧ '/' ∉ field ∧ ':' ∉ path ∧ path ≠ [] ∧
        bucket = (if field = [] then .all else .named field) ∧
        (t = field ++ ':' :: path ∧ flags = none ∨
          ∃ rest, t = field ++ ':' :: (path ++ ':' :: rest) ∧
            flags = if rest = [] then none else some rest) := by
  constructor
  · rintro ⟨raw, hspells, rfl⟩
    cases hspells with
    | bare colon path_ne_nil => exact Or.inl ⟨path_ne_nil, colon, rfl, rfl, rfl⟩
    | bareFlags colon slash =>
      exact Or.inr (Or.inl ⟨_, rfl, colon, slash, rfl, keepFlags_some_eq _⟩)
    | field colon slash colon_path path_ne_nil =>
      exact Or.inr (Or.inr ⟨_, colon, slash, colon_path, path_ne_nil, rfl, Or.inl ⟨rfl, rfl⟩⟩)
    | fieldFlags colon slash colon_path path_ne_nil =>
      exact Or.inr (Or.inr ⟨_, colon, slash, colon_path, path_ne_nil, rfl,
        Or.inr ⟨_, rfl, keepFlags_some_eq _⟩⟩)
  · rintro (⟨hne, hcolon, rfl, rfl, rfl⟩ | ⟨rest, rfl, hcolon, hslash, rfl, rfl⟩ |
      ⟨field, hcolon, hslash, hpath, hne, rfl, ⟨rfl, rfl⟩ | ⟨rest, rfl, rfl⟩⟩)
    · exact ⟨none, .bare hcolon hne, rfl⟩
    · exact ⟨some rest, .bareFlags hcolon hslash, (keepFlags_some_eq rest).symm⟩
    · exact ⟨none, .field hcolon hslash hpath hne, rfl⟩
    · exact ⟨some rest, .fieldFlags hcolon hslash hpath hne, (keepFlags_some_eq rest).symm⟩

/-- **Exact grammar.** A text is read as a directive exactly if it holds no
semicolon and is a path alone, or a path with a slash before the first colon
and flags after it, or a bucket field without a slash, a path and perhaps
flags; flags that are empty count as none. Every other text is refused with an
error of the grammar. If no semicolon is to blame then the error names the
whole text, and a text that is not empty lacks its path: after the first
colon, with no slash before it, comes nothing or another colon. -/
theorem parse_exact (t : Text) :
    (∀ bucket path flags,
      (∃ d, parse t = .ok d ∧ d.bucket = bucket ∧ d.path = path ∧ d.flags = flags) ↔
        ';' ∉ t ∧
          ((t ≠ [] ∧ ':' ∉ t ∧ bucket = .implicit ∧ path = t ∧ flags = none) ∨
          (∃ rest, t = path ++ ':' :: rest ∧ ':' ∉ path ∧ '/' ∈ path ∧ bucket = .implicit ∧
            flags = if rest = [] then none else some rest) ∨
          ∃ field, ':' ∉ field ∧ '/' ∉ field ∧ ':' ∉ path ∧ path ≠ [] ∧
            bucket = (if field = [] then .all else .named field) ∧
            (t = field ++ ':' :: path ∧ flags = none ∨
              ∃ rest, t = field ++ ':' :: (path ++ ':' :: rest) ∧
                flags = if rest = [] then none else some rest))) ∧
    ((∃ d, parse t = .ok d) ∨
      ∃ field reason, parse t = .error (.parse field reason) ∧ (';' ∉ t → field = t)) ∧
    (t ≠ [] ∧ ';' ∉ t →
      ((∃ e, parse t = .error e) ↔
        ∃ head rest, t = head ++ ':' :: rest ∧ ':' ∉ head ∧ '/' ∉ head ∧
          (rest = [] ∨ rest.head? = some ':'))) := by
  refine ⟨?_, ?_, ?_⟩
  · intro bucket path flags
    rw [exists_parse_iff, exists_spells_iff]
  · cases h : parse t with
    | ok d => exact Or.inl ⟨d, rfl⟩
    | error e =>
      obtain ⟨field, reason, rfl⟩ := exists_of_parse_eq_error h
      refine Or.inr ⟨field, reason, rfl, ?_⟩
      intro hsemicolon
      obtain ⟨_, heq⟩ := parse_eq_error hsemicolon h
      cases heq
      rfl
  · rintro ⟨hne, hsemicolon⟩
    rw [refused_iff hsemicolon, or_iff_right hne]
    rfl

-- a second colon right after the first leaves no path between them
example : parse "bucket::--flag".toList =
    .error (.parse "bucket::--flag".toList .noPathAfterBucket) := rfl

end BucketMount.Directive
