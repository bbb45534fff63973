import BucketMount.Json.Printer
import BucketMount.Proofs.Json.Reading

/-!
# What is written and read again

The digits of a number are the only way to write it without a sign, a fraction and an
exponent (`nat?_number_iff`), and every character has an escape that stands for it
(`written_escape`). So a value is read from what is printed for it, on one line
(`read?_compact`) or on many (`read?_pretty`), as long as there is something to print:
its strings stand for texts and its numbers are numbers (`Printable`).
-/

namespace BucketMount.Json

open Token (Spelled)

/-! ## Digits -/

section Digits

variable {t : Text} {n : Nat}

theorem readDecimal_eq_some_iff :
    Text.readDecimal t = some n ↔ IsDigits t ∧ Nat.ofDigitChars 10 t 0 = n := by
  have hfold (ds : Text) (start : Nat) :
      ds.foldlM (fun n c => if c.isDigit then some (10 * n + (c.toNat - 48)) else none) start = some n ↔
        (∀ c ∈ ds, c.isDigit) ∧ Nat.ofDigitChars 10 ds start = n := by
    induction ds generalizing start with
    | nil => simp
    | cons c ds ih =>
      rw [List.foldlM_cons, List.forall_mem_cons, Nat.ofDigitChars_cons]
      by_cases hc : c.isDigit
      · rw [if_pos hc]
        simpa [hc] using ih (10 * start + (c.toNat - 48))
      · simp [hc]
  rw [Text.readDecimal]
  split
  next hnil => simp [IsDigits, List.isEmpty_iff.mp hnil]
  next hne =>
    rw [hfold]
    simp [IsDigits, show t ≠ [] by simpa using hne]

theorem digitChar_of_isDigit {c : Char} (h : c.isDigit) :
    c.toNat - 48 < 10 ∧ (c.toNat - 48).digitChar = c := by
  have hbounds : 48 ≤ c.toNat ∧ c.toNat ≤ 57 := by
    simpa [Char.isDigit, Char.le_def, UInt32.le_iff_toNat_le] using h
  have hall : ∀ d < 10, d.digitChar = Char.ofNat (d + 48) := by decide
  refine ⟨by omega, ?_⟩
  rw [hall _ (by omega), Nat.sub_add_cancel hbounds.1, Char.ofNat_toNat]

/-- Digits without a zero in front are the digits of the number that they make. -/
theorem toDigits_ofDigitChars {c : Char} {ds : Text} (nonzero : c ≠ '0') (h : IsDigits (c :: ds)) :
    0 < Nat.ofDigitChars 10 (c :: ds) 0 ∧ Nat.toDigits 10 (Nat.ofDigitChars 10 (c :: ds) 0) = c :: ds := by
  obtain ⟨hc, hds⟩ := List.forall_mem_cons.mp h.2
  induction ds using List.reverseRecOn with
  | nil =>
    obtain ⟨hlt, hchar⟩ := digitChar_of_isDigit hc
    have hvalue : Nat.ofDigitChars 10 [c] 0 = c.toNat - 48 := by simp [Nat.ofDigitChars_cons]
    refine ⟨Nat.pos_of_ne_zero fun hzero => nonzero ?_, ?_⟩
    · rw [← hchar, ← hvalue, hzero]
      rfl
    · rw [hvalue, Nat.toDigits_of_lt_base hlt, hchar]
  | append_singleton ds d ih =>
    obtain ⟨hds, hd⟩ := List.forall_mem_append.mp hds
    obtain ⟨hpos, hdigits⟩ := ih ⟨by simp, List.forall_mem_cons.mpr ⟨hc, hds⟩⟩ hds
    obtain ⟨hlt, hchar⟩ := digitChar_of_isDigit (hd d List.mem_cons_self)
    have hvalue : Nat.ofDigitChars 10 (c :: (ds ++ [d])) 0 =
        10 * Nat.ofDigitChars 10 (c :: ds) 0 + (d.toNat - 48) := by
      rw [← List.cons_append, Nat.ofDigitChars_append, Nat.ofDigitChars_cons]
      rfl
    rw [hvalue]
    refine ⟨by omega, ?_⟩
    rw [← Nat.toDigits_append_toDigits (by decide) hpos hlt, hdigits, Nat.toDigits_of_lt_base hlt, hchar]
    rfl

theorem head_toDigits (h : 0 < n) : ∃ c ds, Nat.toDigits 10 n = c :: ds ∧ c ≠ '0' := by
  induction n using Nat.strongRecOn with
  | ind n ih =>
    rcases Nat.lt_or_ge n 10 with hlt | hge
    · have hall : ∀ d < 10, 0 < d → d.digitChar ≠ '0' := by decide
      exact ⟨n.digitChar, [], Nat.toDigits_of_lt_base hlt, hall n hlt h⟩
    · obtain ⟨c, ds, hdigits, hc⟩ := ih (n / 10) (by omega) (by omega)
      exact ⟨c, ds ++ [(n % 10).digitChar], by simp [Nat.toDigits_of_base_le, hge, hdigits], hc⟩

theorem isWhole_decimal (n : Nat) : IsWhole (Text.decimal n) := by
  rcases Nat.eq_zero_or_pos n with rfl | hpos
  · exact .zero
  · obtain ⟨c, ds, hdigits, hc⟩ := head_toDigits hpos
    rw [Text.decimal, hdigits]
    refine .digits ⟨by simp, fun d hd => ?_⟩ hc
    rw [← hdigits] at hd
    exact Nat.isDigit_of_mem_toDigits (by decide) (by decide) hd

theorem IsWhole.decimal_eq (h : IsWhole t) : Text.decimal (Nat.ofDigitChars 10 t 0) = t := by
  cases h with
  | zero => rfl
  | digits digits nonzero => exact (toDigits_ofDigitChars nonzero digits).2

/-- A number of digits alone is a whole one. -/
theorem IsNumber.isWhole (h : IsNumber t) (digits : IsDigits t) : IsWhole t := by
  cases h with
  | negative => exact absurd (digits.2 '-' List.mem_cons_self) (by decide)
  | plain magnitude =>
    obtain @⟨w, f, e, whole, fraction, exponent⟩ := magnitude
    obtain ⟨hwf, he⟩ := List.forall_mem_append.mp digits.2
    obtain rfl : f = [] := by
      cases fraction with
      | absent => rfl
      | present => exact absurd (hwf '.' (by simp)) (by decide)
    obtain rfl : e = [] := by
      cases exponent with
      | absent => rfl
      | unsigned letter | signed letter =>
        exact absurd (he _ List.mem_cons_self) (by rcases letter with rfl | rfl <;> decide)
    simpa using whole

theorem nat?_nat (n : Nat) : (nat n).nat? = some n := by
  refine readDecimal_eq_some_iff.mpr ⟨⟨?_, ?_⟩, Nat.ofDigitChars_ten_toDigits⟩
  · exact Nat.toDigits_ne_nil
  · exact fun c hc => Nat.isDigit_of_mem_toDigits (by decide) (by decide) hc

/-- A number that is written by digits alone is written by its own digits. -/
theorem nat?_number_iff (h : IsNumber t) : (number t).nat? = some n ↔ t = Text.decimal n := by
  constructor
  · intro hread
    obtain ⟨digits, rfl⟩ := readDecimal_eq_some_iff.mp hread
    exact (h.isWhole digits).decimal_eq.symm
  · rintro rfl
    exact nat?_nat n

theorem isNumber_decimal (n : Nat) : IsNumber (Text.decimal n) := by
  have hmagnitude : IsMagnitude (Text.decimal n ++ [] ++ []) := .mk (isWhole_decimal n) .absent .absent
  rw [List.append_nil, List.append_nil] at hmagnitude
  exact .plain hmagnitude

end Digits

/-! ## Strings -/

section Strings

theorem written_escape (c : Char) : (Piece.char c).Written (escape c) := by
  unfold escape
  repeat' split
  · exact .escaped (by simp_all [Piece.ofEscape?])
  · exact .escaped (by simp_all [Piece.ofEscape?])
  · exact .escaped (by simp_all [Piece.ofEscape?])
  · exact .escaped (by simp_all [Piece.ofEscape?])
  · exact .escaped (by simp_all [Piece.ofEscape?])
  · exact .escaped (by simp_all [Piece.ofEscape?])
  · exact .escaped (by simp_all [Piece.ofEscape?])
  next hlow =>
    have hall : ∀ n < 32, Piece.ofHex? '0' '0' (Nat.digitChar (n / 16 % 16)) (Nat.digitChar (n % 16)) =
        some (.char (Char.ofNat n)) := by decide
    refine .numbered ?_
    rw [hall _ hlow, Char.ofNat_toNat]
  next hquote hbackslash _ _ _ _ _ hlow => exact .plain (by omega) hquote hbackslash

theorem text?_map_char (t : Text) : Piece.text? (t.map .char) = some t := by
  induction t with
  | nil => rfl
  | cons c t ih => rw [List.map_cons, Piece.text?, ih, Option.map_some]

theorem spells_escape (t : Text) : Piece.Spells (t.map .char) (t.flatMap escape) := by
  induction t with
  | nil => exact .nil
  | cons c t ih => exact .cons (written_escape c) ih

theorem lexeme_quote (t : Text) : Token.Lexeme (.string (some t)) (quote (some t)) := by
  have hlexeme := Token.Lexeme.string (spells_escape t)
  rw [text?_map_char] at hlexeme
  exact hlexeme

end Strings

/-! ## Values -/

/-- A value for which there is something to print. -/
inductive Printable : Json → Prop where
  | null : Printable .null
  | bool (b : Bool) : Printable (.bool b)
  | number {lexeme : Text} (form : IsNumber lexeme) : Printable (.number lexeme)
  | string (t : Text) : Printable (.string (some t))
  | array {items : List Json} (values : ∀ v ∈ items, Printable v) : Printable (.array items)
  | object {members : List (Option Text × Json)} (keys : ∀ m ∈ members, ∃ k, m.1 = some k)
      (values : ∀ m ∈ members, Printable m.2) : Printable (.object members)

section Values

variable {tokens : List Token} {s t : Text}

theorem Token.Lexeme.spelled {token : Token} (h : token.Lexeme s) : Spelled [token] s := by
  have hspelled := Spelled.token h .nil
  rwa [List.append_nil] at hspelled

theorem spelled_blanks (hs : ∀ c ∈ s, Token.isBlank c) (ht : Spelled tokens t) :
    Spelled tokens (s ++ t) := by
  induction s with
  | nil => exact ht
  | cons c s ih =>
    obtain ⟨hc, hs⟩ := List.forall_mem_cons.mp hs
    exact .blank hc (ih hs)

theorem isBlank_of_mem_newline (depth : Nat) : ∀ c ∈ newline depth, Token.isBlank c := by
  intro c hc
  rcases List.mem_cons.mp hc with rfl | hc
  · rfl
  · rw [List.eq_of_mem_replicate hc]
    rfl

theorem spelled_newline (depth : Nat) (h : Spelled tokens t) : Spelled tokens (newline depth ++ t) :=
  spelled_blanks (isBlank_of_mem_newline depth) h

theorem spelled_row {α : Type} {part : α → List Token} {print : α → Text} {l : List α}
    (h : ∀ a ∈ l, Spelled (part a) (print a)) :
    Spelled (row .comma part l) (row ',' print l) := by
  induction l with
  | nil => exact .nil
  | cons a l ih =>
    obtain ⟨ha, hl⟩ := List.forall_mem_cons.mp h
    cases l with
    | nil => exact ha
    | cons b l => exact ha.append (.token .comma (ih hl))

theorem compactItems_eq (items : List Json) : compactItems items = row ',' compact items := by
  fun_induction row ',' compact items with
  | case3 v w rest ih => rw [compactItems, ih]
  | _ => simp [compactItems]

theorem compactMembers_eq (members : List (Option Text × Json)) :
    compactMembers members = row ',' (fun m => quote m.1 ++ ':' :: compact m.2) members := by
  fun_induction row ',' (fun m : Option Text × Json => quote m.1 ++ ':' :: compact m.2) members with
  | case3 m m' rest ih => rw [compactMembers, ih]
  | _ => simp [compactMembers]

theorem prettyItems_eq (depth : Nat) (items : List Json) :
    prettyItems depth items = row ',' (fun v => newline depth ++ prettyAt depth v) items := by
  fun_induction row ',' (fun v => newline depth ++ prettyAt depth v) items with
  | case3 v w rest ih => rw [prettyItems, ih]
  | _ => simp [prettyItems]

theorem prettyMembers_eq (depth : Nat) (members : List (Option Text × Json)) :
    prettyMembers depth members =
      row ',' (fun m => newline depth ++ quote m.1 ++ ": ".toList ++ prettyAt depth m.2) members := by
  fun_induction row ',' (fun m : Option Text × Json =>
      newline depth ++ quote m.1 ++ ": ".toList ++ prettyAt depth m.2) members with
  | case3 m m' rest ih => rw [prettyMembers, ih]
  | _ => simp [prettyMembers]

/-- What is written on one line is the value. -/
theorem Printable.spelled_compact {v : Json} (h : v.Printable) : Spelled v.tokens v.compact := by
  induction h with
  | null => exact Token.Lexeme.spelled .null
  | bool b =>
    cases b
    · exact Token.Lexeme.spelled .false
    · exact Token.Lexeme.spelled .true
  | number form => exact Token.Lexeme.spelled (.number form)
  | string t => exact (lexeme_quote t).spelled
  | array _ ih =>
    rw [Json.tokens, compact, itemTokens_eq, compactItems_eq]
    exact (Spelled.token .openBracket (spelled_row ih)).append (Token.Lexeme.spelled .closeBracket)
  | @object members keys _ ih =>
    rw [Json.tokens, compact, memberTokens_eq, compactMembers_eq]
    have hpair (m : Option Text × Json) (hm : m ∈ members) :
        Spelled (pairTokens m) (quote m.1 ++ ':' :: compact m.2) := by
      obtain ⟨k, hk⟩ := keys m hm
      rw [pairTokens, hk]
      exact .token (lexeme_quote k) (.token .colon (ih m hm))
    exact (Spelled.token .openBrace (spelled_row hpair)).append (Token.Lexeme.spelled .closeBrace)

/-- What is written on many lines is the value. -/
theorem Printable.spelled_prettyAt {v : Json} (h : v.Printable) (depth : Nat) :
    Spelled v.tokens (v.prettyAt depth) := by
  induction h generalizing depth with
  | null => exact Token.Lexeme.spelled .null
  | bool b =>
    cases b
    · exact Token.Lexeme.spelled .false
    · exact Token.Lexeme.spelled .true
  | number form => exact Token.Lexeme.spelled (.number form)
  | string t => exact (lexeme_quote t).spelled
  | @array items _ ih =>
    cases items with
    | nil => exact .token .openBracket (Token.Lexeme.spelled .closeBracket)
    | cons v items =>
      rw [Json.tokens, prettyAt, itemTokens_eq, prettyItems_eq]
      have hitem (w : Json) (hw : w ∈ v :: items) :
          Spelled w.tokens (newline (depth + 1) ++ prettyAt (depth + 1) w) :=
        spelled_newline (depth + 1) (ih w hw (depth + 1))
      have hclose := spelled_newline depth (Token.Lexeme.spelled .closeBracket)
      have harray := (Spelled.token .openBracket (spelled_row hitem)).append hclose
      rwa [← List.append_assoc] at harray
  | @object members keys _ ih =>
    cases members with
    | nil => exact .token .openBrace (Token.Lexeme.spelled .closeBrace)
    | cons m members =>
      rw [Json.tokens, prettyAt, memberTokens_eq, prettyMembers_eq]
      have hpair (m' : Option Text × Json) (hm' : m' ∈ m :: members) : Spelled (pairTokens m')
          (newline (depth + 1) ++ quote m'.1 ++ ": ".toList ++ prettyAt (depth + 1) m'.2) := by
        obtain ⟨k, hk⟩ := keys m' hm'
        have hvalue : Spelled m'.2.tokens (' ' :: prettyAt (depth + 1) m'.2) :=
          .blank rfl (ih m' hm' (depth + 1))
        have hcolon : ": ".toList ++ prettyAt (depth + 1) m'.2 = ':' :: ' ' :: prettyAt (depth + 1) m'.2 :=
          rfl
        rw [pairTokens, hk, List.append_assoc, List.append_assoc, hcolon]
        exact spelled_newline (depth + 1) (.token (lexeme_quote k) (.token .colon hvalue))
      have hclose := spelled_newline depth (Token.Lexeme.spelled .closeBrace)
      have hobject := (Spelled.token .openBrace (spelled_row hpair)).append hclose
      rwa [← List.append_assoc] at hobject

end Values

/-- A value is read from what is printed for it. -/
theorem read?_compact {v : Json} (h : v.Printable) : read? v.compact = some v :=
  read?_eq_some_iff.mpr h.spelled_compact

theorem read?_pretty {v : Json} (h : v.Printable) : read? v.pretty = some v :=
  read?_eq_some_iff.mpr (h.spelled_prettyAt 0)

end BucketMount.Json
