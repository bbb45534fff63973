import BucketMount.Text.Utf8
import Mathlib.Data.List.Infix

/-!
# Text and its bytes

The bytes of a text and the text in some bytes are inverse to each other
(`ofUtf8?_eq_some_iff`), so that different texts have different bytes. Between
the two stands the grammar of a character (`Sequence`): the shortest form, no
surrogate, nothing beyond the last plane. A reader finds exactly what the
grammar has (`readChar_eq_ok_iff`), and so does a writer (`sequence_iff`).

A character of one byte is never part of another one, so it stands in a text
exactly if its byte stands among the bytes (`mem_toUtf8_iff`).
-/

namespace BucketMount.Text

/-- A byte that continues a character. -/
def Continues (b : UInt8) : Prop := 0x80 ≤ b.toNat ∧ b.toNat < 0xC0

/-- The bytes of one character, with its number. -/
inductive Sequence : Bytes → Nat → Prop where
  | one {b : UInt8} (first : b.toNat < 0x80) : Sequence [b] b.toNat
  | two {b b₁ : UInt8} (first : 0xC2 ≤ b.toNat ∧ b.toNat < 0xE0) (second : Continues b₁) :
      Sequence [b, b₁] (b.toNat % 32 * 64 + payload b₁)
  | three {b b₁ b₂ : UInt8} (first : 0xE0 ≤ b.toNat ∧ b.toNat < 0xF0) (second : Continues b₁)
      (shortest : b.toNat = 0xE0 → 0xA0 ≤ b₁.toNat)
      (no_surrogate : b.toNat = 0xED → b₁.toNat < 0xA0) (third : Continues b₂) :
      Sequence [b, b₁, b₂] (b.toNat % 16 * 4096 + payload b₁ * 64 + payload b₂)
  | four {b b₁ b₂ b₃ : UInt8} (first : 0xF0 ≤ b.toNat ∧ b.toNat < 0xF5) (second : Continues b₁)
      (shortest : b.toNat = 0xF0 → 0x90 ≤ b₁.toNat)
      (last_plane : b.toNat = 0xF4 → b₁.toNat < 0x90)
      (third : Continues b₂) (fourth : Continues b₃) :
      Sequence [b, b₁, b₂, b₃]
        (b.toNat % 8 * 262144 + payload b₁ * 4096 + payload b₂ * 64 + payload b₃)

/-! ## What a first byte says -/

section LeadByte

variable {b b₁ lo hi : UInt8}

theorem leadByte_eq_one_iff :
    leadByte b = some (1, lo, hi) ↔ b.toNat < 0x80 ∧ lo = 0 ∧ hi = 0 := by
  simp only [leadByte, UInt8.lt_iff_toNat_lt, ← UInt8.toNat_inj (a := b), UInt8.toNat_ofNat]
  grind

theorem leadByte_eq_two_iff : leadByte b = some (2, lo, hi) ↔
    (0xC2 ≤ b.toNat ∧ b.toNat < 0xE0) ∧ lo = 0x80 ∧ hi = 0xBF := by
  simp only [leadByte, UInt8.lt_iff_toNat_lt, ← UInt8.toNat_inj (a := b), UInt8.toNat_ofNat]
  grind

theorem leadByte_eq_three_iff : leadByte b = some (3, lo, hi) ↔
    (0xE0 ≤ b.toNat ∧ b.toNat < 0xF0) ∧
      lo = (if b.toNat = 0xE0 then 0xA0 else 0x80) ∧
      hi = (if b.toNat = 0xED then 0x9F else 0xBF) := by
  simp only [leadByte, UInt8.lt_iff_toNat_lt, ← UInt8.toNat_inj (a := b), UInt8.toNat_ofNat]
  grind

theorem leadByte_eq_four_iff : leadByte b = some (4, lo, hi) ↔
    (0xF0 ≤ b.toNat ∧ b.toNat < 0xF5) ∧
      lo = (if b.toNat = 0xF0 then 0x90 else 0x80) ∧
      hi = (if b.toNat = 0xF4 then 0x8F else 0xBF) := by
  simp only [leadByte, UInt8.lt_iff_toNat_lt, ← UInt8.toNat_inj (a := b), UInt8.toNat_ofNat]
  grind

theorem length_of_leadByte {n : Nat} (h : leadByte b = some (n, lo, hi)) :
    n = 1 ∨ n = 2 ∨ n = 3 ∨ n = 4 := by
  unfold leadByte at h
  grind

theorem isContinuation_iff : isContinuation b = true ↔ Continues b := by
  simp only [isContinuation, Continues, Bool.and_eq_true, decide_eq_true_eq,
    UInt8.le_iff_toNat_le, UInt8.toNat_ofNat]
  omega

theorem second_two_iff : (0x80 ≤ b₁ ∧ b₁ ≤ 0xBF) ↔ Continues b₁ := by
  rw [← isContinuation_iff]
  simp [isContinuation]

theorem second_three_iff :
    ((if b.toNat = 0xE0 then 0xA0 else 0x80) ≤ b₁ ∧
        b₁ ≤ if b.toNat = 0xED then 0x9F else 0xBF) ↔
      Continues b₁ ∧ (b.toNat = 0xE0 → 0xA0 ≤ b₁.toNat) ∧ (b.toNat = 0xED → b₁.toNat < 0xA0) := by
  simp only [Continues, UInt8.le_iff_toNat_le, apply_ite UInt8.toNat, UInt8.toNat_ofNat]
  split_ifs <;> omega

theorem second_four_iff :
    ((if b.toNat = 0xF0 then 0x90 else 0x80) ≤ b₁ ∧
        b₁ ≤ if b.toNat = 0xF4 then 0x8F else 0xBF) ↔
      Continues b₁ ∧ (b.toNat = 0xF0 → 0x90 ≤ b₁.toNat) ∧ (b.toNat = 0xF4 → b₁.toNat < 0x90) := by
  simp only [Continues, UInt8.le_iff_toNat_le, apply_ite UInt8.toNat, UInt8.toNat_ofNat]
  split_ifs <;> omega

end LeadByte

/-! ## Reading and writing a character -/

/-- What is read first is a character of the grammar. -/
theorem sequence_of_readChar {bytes : Bytes} {c : Char} {n : Nat}
    (h : readChar bytes = .ok (c, n)) :
    ∃ s rest m, Sequence s m ∧ bytes = s ++ rest ∧ c = Char.ofNat m ∧ n = s.length := by
  revert h
  fun_cases readChar bytes
  all_goals
    intro h
    cases h
  case case3.refl b rest _ _ hlead =>
    obtain ⟨first, _⟩ := leadByte_eq_one_iff.mp hlead
    exact ⟨[b], rest, _, .one first, rfl, rfl, rfl⟩
  case case6.refl b lo hi b₁ rest hsecond _ hlead =>
    obtain ⟨first, rfl, rfl⟩ := leadByte_eq_two_iff.mp hlead
    have second : Continues b₁ := second_two_iff.mp (not_not.mp hsecond)
    exact ⟨[b, b₁], rest, _, .two first second, rfl, rfl, rfl⟩
  case case9.refl b lo hi b₁ hsecond b₂ rest hthird _ hlead _ =>
    obtain ⟨first, rfl, rfl⟩ := leadByte_eq_three_iff.mp hlead
    obtain ⟨second, shortest, no_surrogate⟩ := second_three_iff.mp (not_not.mp hsecond)
    have third : Continues b₂ := isContinuation_iff.mp (not_not.mp hthird)
    exact ⟨[b, b₁, b₂], rest, _, .three first second shortest no_surrogate third, rfl, rfl, rfl⟩
  case case12.refl b k lo hi hk hlead b₁ hsecond hk₂ b₂ hthird hk₃ b₃ rest hfourth m =>
    -- the reader has ruled out the other lengths one by one
    have hlast : k = 4 := by
      rcases length_of_leadByte hlead with h | h | h | h
      · exact absurd h hk
      · exact absurd h hk₂
      · exact absurd h hk₃
      · exact h
    subst hlast
    obtain ⟨first, rfl, rfl⟩ := leadByte_eq_four_iff.mp hlead
    obtain ⟨second, shortest, last_plane⟩ := second_four_iff.mp (not_not.mp hsecond)
    have third : Continues b₂ := isContinuation_iff.mp (not_not.mp hthird)
    have fourth : Continues b₃ := isContinuation_iff.mp (not_not.mp hfourth)
    exact ⟨[b, b₁, b₂, b₃], rest, _, .four first second shortest last_plane third fourth,
      rfl, rfl, rfl⟩

/-- A character of the grammar is read, whatever follows it. -/
theorem readChar_of_sequence {s : Bytes} {m : Nat} (h : Sequence s m) (rest : Bytes) :
    readChar (s ++ rest) = .ok (Char.ofNat m, s.length) := by
  cases h with
  | @one b first =>
    have hlead := leadByte_eq_one_iff.mpr ⟨first, rfl, rfl⟩
    simp [readChar, hlead]
  | @two b b₁ first second =>
    have hlead := leadByte_eq_two_iff.mpr ⟨first, rfl, rfl⟩
    have hsecond := second_two_iff.mpr second
    simp [readChar, hlead, hsecond]
  | @three b b₁ b₂ first second shortest no_surrogate third =>
    have hlead := leadByte_eq_three_iff.mpr ⟨first, rfl, rfl⟩
    have hsecond := second_three_iff.mpr ⟨second, shortest, no_surrogate⟩
    have hthird := isContinuation_iff.mpr third
    simp [readChar, hlead, hsecond, hthird]
  | @four b b₁ b₂ b₃ first second shortest last_plane third fourth =>
    have hlead := leadByte_eq_four_iff.mpr ⟨first, rfl, rfl⟩
    have hsecond := second_four_iff.mpr ⟨second, shortest, last_plane⟩
    have hthird := isContinuation_iff.mpr third
    have hfourth := isContinuation_iff.mpr fourth
    simp [readChar, hlead, hsecond, hthird, hfourth]

/-- What is written for a character is the character of the grammar with its
number. -/
theorem sequence_charBytes (c : Char) : Sequence (charBytes c) c.toNat := by
  have hvalid : c.toNat < 0xD800 ∨ 0xDFFF < c.toNat ∧ c.toNat < 0x110000 := c.valid
  unfold charBytes
  generalize c.toNat = n at hvalid
  simp only
  split_ifs with h₁ h₂ h₃
  · have h : Sequence [UInt8.ofNat n] _ := .one (by simp; omega)
    convert h using 1
    simp
    omega
  · have h : Sequence [UInt8.ofNat (0xC0 + n / 64), UInt8.ofNat (0x80 + n % 64)] _ :=
      .two (by simp; omega) (by simp [Continues]; omega)
    convert h using 1
    simp [payload]
    omega
  · have h : Sequence [UInt8.ofNat (0xE0 + n / 4096), UInt8.ofNat (0x80 + n / 64 % 64),
        UInt8.ofNat (0x80 + n % 64)] _ :=
      .three (by simp; omega) (by simp [Continues]; omega) (by simp; omega) (by simp; omega)
        (by simp [Continues]; omega)
    convert h using 1
    simp [payload]
    omega
  · have h : Sequence [UInt8.ofNat (0xF0 + n / 262144), UInt8.ofNat (0x80 + n / 4096 % 64),
        UInt8.ofNat (0x80 + n / 64 % 64), UInt8.ofNat (0x80 + n % 64)] _ :=
      .four (by simp; omega) (by simp [Continues]; omega) (by simp; omega) (by simp; omega)
        (by simp [Continues]; omega) (by simp [Continues]; omega)
    convert h using 1
    simp [payload]
    omega

/-- The number of a character of the grammar is one of a character. -/
theorem Sequence.isValidChar {s : Bytes} {m : Nat} (h : Sequence s m) : m.isValidChar := by
  unfold Nat.isValidChar
  cases h with
  | one first => omega
  | two first second =>
    simp only [Continues, payload] at *
    omega
  | three first second shortest no_surrogate third =>
    simp only [Continues, payload] at *
    omega
  | four first second shortest last_plane third fourth =>
    simp only [Continues, payload] at *
    omega

theorem toNat_ofNat {m : Nat} (h : m.isValidChar) : (Char.ofNat m).toNat = m := by
  unfold Char.ofNat
  rw [dif_pos h]
  rfl

theorem ofNat_eq_iff {n : Nat} {b : UInt8} : UInt8.ofNat n = b ↔ n % 256 = b.toNat := by
  rw [← UInt8.toNat_inj, UInt8.toNat_ofNat']

/-- Only the bytes that are written for a character have its number. -/
theorem charBytes_of_sequence {s : Bytes} {m : Nat} (h : Sequence s m) :
    charBytes (Char.ofNat m) = s := by
  unfold charBytes
  rw [toNat_ofNat h.isValidChar]
  cases h with
  | one first => simp [first]
  | @two b b₁ first second =>
    generalize hn : b.toNat % 32 * 64 + payload b₁ = n
    simp only [Continues, payload] at second hn
    rw [if_neg (by omega), if_pos (by omega)]
    simp only [List.cons.injEq, ofNat_eq_iff, and_true]
    omega
  | @three b b₁ b₂ first second shortest no_surrogate third =>
    generalize hn : b.toNat % 16 * 4096 + payload b₁ * 64 + payload b₂ = n
    simp only [Continues, payload] at second third hn
    rw [if_neg (by omega), if_neg (by omega), if_pos (by omega)]
    simp only [List.cons.injEq, ofNat_eq_iff, and_true]
    omega
  | @four b b₁ b₂ b₃ first second shortest last_plane third fourth =>
    generalize hn : b.toNat % 8 * 262144 + payload b₁ * 4096 + payload b₂ * 64 + payload b₃ = n
    simp only [Continues, payload] at second third fourth hn
    rw [if_neg (by omega), if_neg (by omega), if_neg (by omega)]
    simp only [List.cons.injEq, ofNat_eq_iff, and_true]
    omega

/-- The grammar has the characters, each as it is written. -/
theorem sequence_iff {s : Bytes} {m : Nat} :
    Sequence s m ↔ m.isValidChar ∧ charBytes (Char.ofNat m) = s := by
  constructor
  · intro h
    exact ⟨h.isValidChar, charBytes_of_sequence h⟩
  · rintro ⟨hvalid, rfl⟩
    have h := sequence_charBytes (Char.ofNat m)
    rwa [toNat_ofNat hvalid] at h

/-- A character is read exactly where its bytes come first. -/
theorem readChar_eq_ok_iff {bytes : Bytes} {c : Char} {n : Nat} :
    readChar bytes = .ok (c, n) ↔
      ∃ rest, bytes = charBytes c ++ rest ∧ n = (charBytes c).length := by
  constructor
  · intro h
    obtain ⟨s, rest, m, hs, rfl, rfl, rfl⟩ := sequence_of_readChar h
    rw [charBytes_of_sequence hs]
    exact ⟨rest, rfl, rfl⟩
  · rintro ⟨rest, rfl, rfl⟩
    rw [readChar_of_sequence (sequence_charBytes c) rest, Char.ofNat_toNat]

/-! ## Reading and writing a text -/

theorem toUtf8_cons (c : Char) (t : Text) : toUtf8 (c :: t) = charBytes c ++ toUtf8 t := rfl

theorem length_charBytes_pos (c : Char) : 0 < (charBytes c).length := by
  rw [length_charBytes]
  exact c.utf8Size_pos

theorem toUtf8_eq_nil_iff {t : Text} : toUtf8 t = [] ↔ t = [] := by
  cases t with
  | nil => simp
  | cons c t => simp [toUtf8_cons, List.ne_nil_of_length_pos (length_charBytes_pos c)]

/-- Bytes are read as the text that they are the written form of. -/
theorem ofUtf8?_eq_some_iff {bytes : Bytes} {t : Text} :
    ofUtf8? bytes = some t ↔ toUtf8 t = bytes := by
  -- along the reader, which takes one character off at a time
  induction bytes using ofUtf8?.induct generalizing t with
  | case1 => rw [ofUtf8?, toUtf8_eq_nil_iff, Option.some.injEq, eq_comm]
  | case2 b rest n hread =>
    rw [ofUtf8?, hread]
    constructor
    · intro h
      cases h
    · intro h
      cases t with
      | nil => cases h
      | cons c t =>
        rw [← h, toUtf8_cons, readChar_eq_ok_iff.mpr ⟨_, rfl, rfl⟩] at hread
        cases hread
  | case3 b rest c n hread ih =>
    obtain ⟨rest', hbytes, rfl⟩ := readChar_eq_ok_iff.mp hread
    have hdrop : rest.drop ((charBytes c).length - 1) = rest' := by
      have hpos := length_charBytes_pos c
      rw [← List.drop_succ_cons, Nat.sub_add_cancel hpos, hbytes, List.drop_left]
    rw [hdrop] at ih
    rw [ofUtf8?, hread]
    simp only [hdrop, Option.map_eq_some_iff, ih, hbytes]
    constructor
    · rintro ⟨t', rfl, rfl⟩
      exact toUtf8_cons c t'
    · intro h
      cases t with
      | nil =>
        have hne := List.ne_nil_of_length_pos (length_charBytes_pos c)
        simp [hne] at h
      | cons c' t =>
        -- both characters are the one that is read
        rw [toUtf8_cons] at h
        have hread' := readChar_eq_ok_iff.mpr ⟨toUtf8 t, h.symm, rfl⟩
        rw [hbytes, hread'] at hread
        cases hread
        exact ⟨t, List.append_cancel_left h, rfl⟩

/-- Different texts have different bytes. -/
theorem toUtf8_inj {s t : Text} : toUtf8 s = toUtf8 t ↔ s = t := by
  constructor
  · intro h
    have hs : ofUtf8? (toUtf8 t) = some s := ofUtf8?_eq_some_iff.mpr h
    rw [ofUtf8?_eq_some_iff.mpr rfl] at hs
    exact (Option.some.inj hs).symm
  · rintro rfl
    rfl

/-! ## Characters of one byte -/

/-- A byte below 0x80 is a whole character. -/
theorem Sequence.eq_toNat_of_mem {s : Bytes} {m : Nat} {b : UInt8} (h : Sequence s m)
    (hb : b ∈ s) (hlt : b.toNat < 0x80) : m = b.toNat := by
  cases h <;> simp only [List.mem_cons, List.not_mem_nil, or_false, Continues] at * <;> grind

theorem mem_charBytes_iff {a c : Char} (ha : a.toNat < 0x80) :
    UInt8.ofNat a.toNat ∈ charBytes c ↔ a = c := by
  have hbyte : (UInt8.ofNat a.toNat).toNat = a.toNat := by
    rw [UInt8.toNat_ofNat']
    omega
  constructor
  · intro h
    have hnumber := (sequence_charBytes c).eq_toNat_of_mem h (by omega)
    rw [hbyte] at hnumber
    exact (Char.toNat_inj.mp hnumber).symm
  · rintro rfl
    simp [charBytes, ha]

/-- A character of one byte stands in a text where its byte does. -/
theorem mem_toUtf8_iff {a : Char} {t : Text} (ha : a.toNat < 0x80) :
    UInt8.ofNat a.toNat ∈ toUtf8 t ↔ a ∈ t := by
  induction t with
  | nil => simp
  | cons c t ih => rw [toUtf8_cons, List.mem_append, mem_charBytes_iff ha, ih, List.mem_cons]

end BucketMount.Text
