import BucketMount.Proofs.MountList.Resolution
import BucketMount.Proofs.Text.Utf8

/-!
# Characters that travel with a list

Reading cuts a text at its separators and drops nothing else, so any other
character of a text is in the directives that are read from it
(`mem_iff_of_decode`), and a relative path takes in the characters of its base
(`mem_iff_of_resolveAll`). What a written list holds (`mem_encode_iff`) can so
be traced to the texts it was made from.

A character stands for itself here only if no stage adds or drops it. The
separators and the dot, which a path may start with, are left out (`Kept`).
-/

namespace BucketMount

/-- A character that no stage adds or drops. -/
structure Text.Kept (c : Char) : Prop where
  ne_colon : c ≠ ':'
  ne_semicolon : c ≠ ';'
  ne_slash : c ≠ '/'
  ne_dot : c ≠ '.'

variable {c : Char}

theorem Text.mem_intercalate_iff {sep : Char} (hc : c ≠ sep) {ts : List Text} :
    c ∈ [sep].intercalate ts ↔ ∃ t ∈ ts, c ∈ t := by
  induction ts with
  | nil => simp
  | cons t ts ih =>
    cases ts with
    | nil => simp
    | cons t' ts =>
      rw [List.intercalate_cons_cons, List.append_assoc, List.mem_append, List.mem_append, ih]
      simp [hc]

namespace Directive

/-- What a token holds besides colons is in one of the fields. -/
theorem mem_token_iff (hc : c ≠ ':') {d : Directive} :
    c ∈ d.token ↔ (∃ name, d.bucket = .named name ∧ c ∈ name) ∨ c ∈ d.path ∨
      ∃ flags, d.flags = some flags ∧ c ∈ flags := by
  unfold token
  cases d.bucket <;> cases d.flags <;> simp [hc]

theorem mem_ofField_iff {field : Text} :
    (∃ name, Bucket.ofField field = .named name ∧ c ∈ name) ↔ c ∈ field := by
  unfold Bucket.ofField
  split
  · rename_i hnil
    simp [hnil]
  · simp

theorem mem_keepFlags_iff {flags : Option Text} :
    (∃ f, keepFlags flags = some f ∧ c ∈ f) ↔ ∃ f, flags = some f ∧ c ∈ f := by
  cases flags with
  | none => simp [keepFlags]
  | some f =>
    by_cases hnil : f = [] <;> simp [keepFlags, hnil]

/-- A token that is read loses nothing but separators. -/
theorem mem_token_iff_of_parse (hc : c ≠ ':') {t : Text} {d : Directive}
    (h : parse t = .ok d) : c ∈ d.token ↔ c ∈ t := by
  obtain ⟨flags, hspells, hflags⟩ := parse_eq_ok_iff.mp h
  rw [mem_token_iff hc, hflags, mem_keepFlags_iff]
  -- the two fields of the directive become variables that the grammar can fix
  generalize d.bucket = bucket at hspells
  generalize d.path = path at hspells
  cases hspells with
  | bare colon path_ne_nil => simp
  | bareFlags colon slash => simp [hc]
  | field colon slash colon_path path_ne_nil =>
    rw [mem_ofField_iff]
    simp [hc]
  | fieldFlags colon slash colon_path path_ne_nil =>
    rw [mem_ofField_iff]
    simp [hc]

end Directive

/-! ## Relative paths -/

theorem Text.mem_trimEnd_iff (hc : c ≠ '/') {t : Text} : c ∈ trimEnd '/' t ↔ c ∈ t := by
  -- what is cut off consists of slashes
  obtain ⟨_, n, ht⟩ := Text.trimEnd_eq_iff.mp (rfl : trimEnd '/' t = _)
  conv_rhs => rw [ht]
  simp [hc]

theorem Text.mem_under_iff (hc : Kept c) {base path : Text} :
    c ∈ under base path ↔ c ∈ base ∨ c ∈ path := by
  have hpath : c ∈ withoutDotSlash path ↔ c ∈ path := by
    unfold withoutDotSlash
    split <;> simp [hc.ne_dot, hc.ne_slash]
  rw [under, List.mem_append, mem_trimEnd_iff hc.ne_slash, List.mem_cons, hpath]
  simp [hc.ne_slash]

theorem mem_iff_of_baseDirectory (hbyte : c.toNat < 0x80) {base : Bytes} {t : Text}
    (h : baseDirectory base = .ok t) : c ∈ t ↔ UInt8.ofNat c.toNat ∈ base := by
  obtain ⟨rfl, _⟩ := baseDirectory_eq_ok_iff.mp h
  rw [Text.mem_toUtf8_iff hbyte]

/-- A relative path takes in its base. -/
theorem Directive.mem_token_iff_of_resolve (hc : Text.Kept c) (hbyte : c.toNat < 0x80)
    {base : Bytes} {d e : Directive} (h : d.resolve base = .ok e) :
    c ∈ e.token ↔ c ∈ d.token ∨ ¬d.isAbsolute ∧ UInt8.ofNat c.toNat ∈ base := by
  rcases resolve_eq_ok_iff.mp h with ⟨habs, rfl⟩ | ⟨hrel, t, ht, hbucket, hpath, hflags⟩
  · simp [habs]
  · rw [mem_token_iff hc.ne_colon, mem_token_iff hc.ne_colon, hbucket, hpath, hflags,
      Text.mem_under_iff hc, ← mem_iff_of_baseDirectory hbyte ht]
    grind

namespace MountList

/-! ## Lists -/

theorem mem_encode_iff (hc : c ≠ ';') {l : MountList} :
    c ∈ encode l ↔ ∃ d ∈ l, c ∈ d.token := by
  rw [encode, Text.mem_intercalate_iff hc]
  simp

theorem mem_tokens_iff (hc : c ≠ ';') {t : Text} :
    (∃ token ∈ tokens t, c ∈ token) ↔ c ∈ t := by
  have hsplit : c ∈ t ↔ ∃ piece ∈ t.splitOn ';', c ∈ piece := by
    rw [← Text.mem_intercalate_iff hc, List.intercalate_splitOn]
  rw [hsplit]
  constructor
  · rintro ⟨token, htoken, hmem⟩
    exact ⟨token, List.mem_of_mem_filter htoken, hmem⟩
  · rintro ⟨piece, hpiece, hmem⟩
    have hne : piece ≠ [] := List.ne_nil_of_mem hmem
    exact ⟨piece, List.mem_filter.mpr ⟨hpiece, by simpa using hne⟩, hmem⟩

/-- A text that is read loses nothing but separators. -/
theorem mem_iff_of_decode (hc : Text.Kept c) {t : Text} {l : MountList}
    (h : decode t = .ok l) : (∃ d ∈ l, c ∈ d.token) ↔ c ∈ t := by
  rw [← mem_tokens_iff hc.ne_semicolon]
  have hall := mapM_eq_ok_iff.mp h
  clear h
  generalize tokens t = ts at hall
  induction hall with
  | nil => simp
  | cons hparse _ ih =>
    have hhead := Directive.mem_token_iff_of_parse hc.ne_colon hparse
    simp only [List.mem_cons, exists_eq_or_imp, hhead, ih]

/-- What a list takes in when it is resolved comes from the base. -/
theorem mem_iff_of_resolveAll (hc : Text.Kept c) (hbyte : c.toNat < 0x80) {base : Bytes}
    {l m : MountList} (h : resolveAll base l = .ok m) :
    (∃ e ∈ m, c ∈ e.token) ↔
      (∃ d ∈ l, c ∈ d.token) ∨ (∃ d ∈ l, ¬d.isAbsolute) ∧ UInt8.ofNat c.toNat ∈ base := by
  have hall := mapM_eq_ok_iff.mp h
  clear h
  induction hall with
  | nil => simp
  | cons hresolve _ ih =>
    have hhead := Directive.mem_token_iff_of_resolve hc hbyte hresolve
    simp only [List.mem_cons, exists_eq_or_imp, hhead, ih]
    grind

end MountList
end BucketMount
