import BucketMount.Json.Token
import Mathlib.Data.List.Chain

/-!
# The written form of tokens

How numbers, strings and the other tokens of the format are written, said without
reading: `Token.Lexeme` for one token and `Token.Spelled` for a row of them with
blanks in between. The scanner finds exactly these rows (`Token.ofText?_eq_some_iff`),
except that of two numbers with no blank in between it sees only one. Each scanner is
taken twice: what it finds is of the form, and what is of the form it finds as long as
what follows does not go on with it (`Token.Ends`).
-/

namespace BucketMount.Json

/-! ## Numbers -/

/-- A row of digits, at least one. -/
def IsDigits (t : Text) : Prop := t ≠ [] ∧ ∀ c ∈ t, c.isDigit

/-- The whole part of a number does not start with a zero, unless it is one. -/
inductive IsWhole : Text → Prop where
  | zero : IsWhole ['0']
  | digits {c : Char} {ds : Text} (digits : IsDigits (c :: ds)) (nonzero : c ≠ '0') : IsWhole (c :: ds)

inductive IsFraction : Text → Prop where
  | absent : IsFraction []
  | present {ds : Text} (digits : IsDigits ds) : IsFraction ('.' :: ds)

inductive IsExponent : Text → Prop where
  | absent : IsExponent []
  | unsigned {c : Char} {ds : Text} (letter : c = 'e' ∨ c = 'E') (digits : IsDigits ds) :
      IsExponent (c :: ds)
  | signed {c s : Char} {ds : Text} (letter : c = 'e' ∨ c = 'E') (sign : s = '+' ∨ s = '-')
      (digits : IsDigits ds) : IsExponent (c :: s :: ds)

/-- A number without its sign. -/
inductive IsMagnitude : Text → Prop where
  | mk {w f e : Text} (whole : IsWhole w) (fraction : IsFraction f) (exponent : IsExponent e) :
      IsMagnitude (w ++ f ++ e)

inductive IsNumber : Text → Prop where
  | plain {t : Text} (magnitude : IsMagnitude t) : IsNumber t
  | negative {t : Text} (magnitude : IsMagnitude t) : IsNumber ('-' :: t)

/-- A number without its sign starts with a digit. -/
theorem IsMagnitude.head {t : Text} (h : IsMagnitude t) : ∃ c t', t = c :: t' ∧ c.isDigit := by
  obtain ⟨whole, -, -⟩ := h
  cases whole with
  | zero => exact ⟨'0', _, rfl, rfl⟩
  | digits digits => exact ⟨_, _, rfl, digits.2 _ List.mem_cons_self⟩

/-! ## Strings -/

/-- The ways in which a piece of a string is written. -/
inductive Piece.Written : Piece → Text → Prop where
  | plain {c : Char} (visible : 0x20 ≤ c.toNat) (quote : c ≠ '"') (backslash : c ≠ '\\') :
      Piece.Written (.char c) [c]
  | escaped {c : Char} {p : Piece} (escape : Piece.ofEscape? c = some p) : Piece.Written p ['\\', c]
  | numbered {a b c d : Char} {p : Piece} (hex : Piece.ofHex? a b c d = some p) :
      Piece.Written p ['\\', 'u', a, b, c, d]

/-- The inside of a string. -/
inductive Piece.Spells : List Piece → Text → Prop where
  | nil : Piece.Spells [] []
  | cons {p : Piece} {ps : List Piece} {s t : Text} (first : p.Written s) (rest : Piece.Spells ps t) :
      Piece.Spells (p :: ps) (s ++ t)

namespace Token

/-! ## Tokens -/

/-- How a token is written. -/
inductive Lexeme : Token → Text → Prop where
  | openBrace : Lexeme openBrace ['\x7b']
  | closeBrace : Lexeme closeBrace ['\x7d']
  | openBracket : Lexeme openBracket ['[']
  | closeBracket : Lexeme closeBracket [']']
  | colon : Lexeme colon [':']
  | comma : Lexeme comma [',']
  | null : Lexeme null ['n', 'u', 'l', 'l']
  | true : Lexeme (bool Bool.true) ['t', 'r', 'u', 'e']
  | false : Lexeme (bool Bool.false) ['f', 'a', 'l', 's', 'e']
  | number {t : Text} (form : IsNumber t) : Lexeme (number t) t
  | string {ps : List Piece} {t : Text} (inside : Piece.Spells ps t) :
      Lexeme (string (Piece.text? ps)) ('"' :: t ++ ['"'])

/-- How a row of tokens is written, with blanks wherever they may stand. -/
inductive Spelled : List Token → Text → Prop where
  | nil : Spelled [] []
  | blank {c : Char} {tokens : List Token} {t : Text} (blank : isBlank c) (rest : Spelled tokens t) :
      Spelled tokens (c :: t)
  | token {token : Token} {tokens : List Token} {s t : Text} (first : Lexeme token s)
      (rest : Spelled tokens t) : Spelled (token :: tokens) (s ++ t)

def IsNumeric (token : Token) : Prop := ∃ t, token = number t

/-- No number stands right after another one. -/
def Separated (tokens : List Token) : Prop :=
  tokens.IsChain fun a b => ¬(a.IsNumeric ∧ b.IsNumeric)

/-- Nothing at the start of the text is one of these characters. -/
def Ends (p : Char → Bool) (t : Text) : Prop := ∀ c ∈ t.head?, p c = false

/-- The characters with which a number goes on. -/
def goesOn (c : Char) : Bool := c.isDigit || c = '.' || c = 'e' || c = 'E'

/-! ## Scanning numbers -/

section Numbers

variable {t ds rest : Text}

theorem digits?_append (h : IsDigits ds) (hrest : Ends Char.isDigit rest) :
    digits? (ds ++ rest) = some (ds, rest) := by
  have htake : (ds ++ rest).takeWhile Char.isDigit = ds := by
    rw [List.takeWhile_append_of_pos h.2]
    cases rest with
    | nil => simp
    | cons c rest => simp [hrest c rfl]
  have hdrop : (ds ++ rest).dropWhile Char.isDigit = rest := by
    rw [List.dropWhile_append_of_pos h.2]
    cases rest with
    | nil => rfl
    | cons c rest => simp [hrest c rfl]
  rw [digits?, digits, htake, hdrop]
  exact if_neg h.1

theorem append_of_digits? (h : digits? t = some (ds, rest)) : t = ds ++ rest ∧ IsDigits ds := by
  rw [digits?, digits] at h
  split at h
  · cases h
  next hne =>
    cases h
    exact ⟨List.takeWhile_append_dropWhile.symm, hne, List.all_eq_true.mp List.all_takeWhile⟩

theorem scanWhole_append (h : IsWhole ds) (hrest : Ends Char.isDigit rest) :
    scanWhole (ds ++ rest) = some (ds, rest) := by
  cases h with
  | zero => rfl
  | digits digits nonzero =>
    rw [List.cons_append, scanWhole.eq_2 _ (by simp [nonzero])]
    exact digits?_append digits hrest

theorem append_of_scanWhole (h : scanWhole t = some (ds, rest)) : t = ds ++ rest ∧ IsWhole ds := by
  rw [scanWhole.eq_def] at h
  split at h
  · cases h
    exact ⟨rfl, .zero⟩
  next hzero =>
    obtain ⟨rfl, hdigits⟩ := append_of_digits? h
    refine ⟨rfl, ?_⟩
    cases ds with
    | nil => exact absurd rfl hdigits.1
    | cons c ds => exact .digits hdigits fun hc => hzero (ds ++ rest) (by rw [hc]; rfl)

theorem scanFraction_append (h : IsFraction ds) (hdigit : Ends Char.isDigit rest)
    (hdot : Ends (· = '.') rest) : scanFraction (ds ++ rest) = some (ds, rest) := by
  cases h with
  | absent =>
    rw [List.nil_append, scanFraction.eq_2]
    rintro rest rfl
    cases hdot '.' rfl
  | present digits =>
    rw [List.cons_append, scanFraction, digits?_append digits hdigit]
    rfl

theorem append_of_scanFraction (h : scanFraction t = some (ds, rest)) :
    t = ds ++ rest ∧ IsFraction ds := by
  rw [scanFraction.eq_def] at h
  split at h
  · obtain ⟨found, hdigits, hds⟩ := Option.map_eq_some_iff.mp h
    cases hds
    obtain ⟨ht, hdigits⟩ := append_of_digits? hdigits
    exact ⟨by rw [ht]; rfl, .present hdigits⟩
  · cases h
    exact ⟨rfl, .absent⟩

theorem goesOn_eq_false {c : Char} (h : goesOn c = false) :
    c.isDigit = false ∧ c ≠ '.' ∧ ¬(c = 'e' ∨ c = 'E') := by
  simp only [goesOn, Bool.or_eq_false_iff, decide_eq_false_iff_not] at h
  exact ⟨h.1.1.1, h.1.1.2, by simp [h.1.2, h.2]⟩

theorem scanExponent_append (h : IsExponent ds) (hrest : Ends goesOn rest) :
    scanExponent (ds ++ rest) = some (ds, rest) := by
  have hdigit : Ends Char.isDigit rest := fun c hc => (goesOn_eq_false (hrest c hc)).1
  cases h with
  | absent =>
    cases rest with
    | nil => rfl
    | cons c rest => exact if_neg (goesOn_eq_false (hrest c rfl)).2.2
  | unsigned letter digits =>
    rename_i c ds
    obtain ⟨d, ds, rfl⟩ := List.exists_cons_of_ne_nil digits.1
    have hd : ¬(d = '+' ∨ d = '-') := by
      have hd := digits.2 d List.mem_cons_self
      rintro (rfl | rfl) <;> cases hd
    rw [List.cons_append, List.cons_append, scanExponent, if_pos letter]
    simp only [if_neg hd]
    rw [← List.cons_append, digits?_append digits hdigit]
    rfl
  | signed letter sign digits =>
    rw [List.cons_append, List.cons_append, scanExponent, if_pos letter]
    simp only [if_pos sign]
    rw [digits?_append digits hdigit]
    rfl

theorem append_of_scanExponent (h : scanExponent t = some (ds, rest)) :
    t = ds ++ rest ∧ IsExponent ds := by
  rw [scanExponent.eq_def] at h
  split at h
  next c t =>
    split at h
    next letter =>
      split at h
      next s t =>
        split at h
        next sign =>
          obtain ⟨found, hdigits, hds⟩ := Option.map_eq_some_iff.mp h
          cases hds
          obtain ⟨ht, hdigits⟩ := append_of_digits? hdigits
          exact ⟨by rw [ht]; rfl, .signed letter sign hdigits⟩
        · obtain ⟨found, hdigits, hds⟩ := Option.map_eq_some_iff.mp h
          cases hds
          obtain ⟨ht, hdigits⟩ := append_of_digits? hdigits
          exact ⟨by rw [ht]; rfl, .unsigned letter hdigits⟩
      · cases h
    · cases h
      exact ⟨rfl, .absent⟩
  · cases h
    exact ⟨rfl, .absent⟩

/-- What follows a part that may be missing follows the part before as well. -/
theorem Ends.append {p : Char → Bool} {s : Text} (hs : Ends p s) (hrest : Ends p rest) :
    Ends p (s ++ rest) := by
  cases s with
  | nil => exact hrest
  | cons c s => exact hs

theorem scanMagnitude_append (h : IsMagnitude ds) (hrest : Ends goesOn rest) :
    scanMagnitude (ds ++ rest) = some (ds, rest) := by
  have hdigit : Ends Char.isDigit rest := fun c hc => (goesOn_eq_false (hrest c hc)).1
  have hdot : Ends (· = '.') rest := fun c hc => by simpa using (goesOn_eq_false (hrest c hc)).2.1
  obtain @⟨w, f, e, whole, fraction, exponent⟩ := h
  -- neither of the later parts starts with what the part before goes on with
  have hfraction : Ends Char.isDigit f := by
    cases fraction <;> simp [Ends]
  have hexponent : Ends Char.isDigit e ∧ Ends (· = '.') e := by
    cases exponent with
    | absent => simp [Ends]
    | unsigned letter => rcases letter with rfl | rfl <;> simp [Ends]
    | signed letter => rcases letter with rfl | rfl <;> simp [Ends]
  have hw := scanWhole_append whole (hfraction.append (hexponent.1.append hdigit))
  have hf := scanFraction_append fraction (hexponent.1.append hdigit) (hexponent.2.append hdot)
  simp [scanMagnitude, List.append_assoc, hw, hf, scanExponent_append exponent hrest]

theorem append_of_scanMagnitude (h : scanMagnitude t = some (ds, rest)) :
    t = ds ++ rest ∧ IsMagnitude ds := by
  simp only [scanMagnitude, Option.bind_eq_bind, Option.bind_eq_some_iff, Prod.exists,
    Option.pure_def, Option.some.injEq, Prod.mk.injEq] at h
  obtain ⟨w, t₁, hw, f, t₂, hf, e, t₃, he, rfl, rfl⟩ := h
  obtain ⟨rfl, whole⟩ := append_of_scanWhole hw
  obtain ⟨rfl, fraction⟩ := append_of_scanFraction hf
  obtain ⟨rfl, exponent⟩ := append_of_scanExponent he
  exact ⟨by simp, .mk whole fraction exponent⟩

theorem scanNumber_append (h : IsNumber ds) (hrest : Ends goesOn rest) :
    scanNumber (ds ++ rest) = some (ds, rest) := by
  cases h with
  | plain magnitude =>
    obtain ⟨c, t', rfl, hc⟩ := magnitude.head
    rw [List.cons_append, scanNumber.eq_2, ← List.cons_append, scanMagnitude_append magnitude hrest]
    rintro _ hsign
    cases hsign
    cases hc
  | negative magnitude =>
    rw [List.cons_append, scanNumber, scanMagnitude_append magnitude hrest]
    rfl

theorem append_of_scanNumber (h : scanNumber t = some (ds, rest)) : t = ds ++ rest ∧ IsNumber ds := by
  rw [scanNumber.eq_def] at h
  split at h
  · obtain ⟨found, hmagnitude, hds⟩ := Option.map_eq_some_iff.mp h
    cases hds
    obtain ⟨ht, hmagnitude⟩ := append_of_scanMagnitude hmagnitude
    exact ⟨by rw [ht]; rfl, .negative hmagnitude⟩
  · obtain ⟨ht, hmagnitude⟩ := append_of_scanMagnitude h
    exact ⟨ht, .plain hmagnitude⟩

end Numbers

/-! ## Scanning strings -/

section Strings

variable {t rest : Text} {ps : List Piece}

theorem scanString_append (h : Piece.Spells ps t) :
    scanString (t ++ '"' :: rest) = some (ps, rest) := by
  induction h with
  | nil => rfl
  | @cons p ps s t first _ ih =>
    rw [List.append_assoc]
    cases first with
    | plain visible quote backslash =>
      rw [List.singleton_append, scanString.eq_4 _ _ quote (by simp [backslash]) (by simp [backslash]),
        if_neg (Nat.not_lt.mpr visible), ih]
      rfl
    | @escaped c _ escape =>
      have hc : c ≠ 'u' := by
        rintro rfl
        cases escape
      rw [List.cons_append, List.singleton_append, scanString.eq_3 _ _ (by simp [hc]), escape, ih]
      rfl
    | numbered hex =>
      rw [List.cons_append, List.cons_append, List.cons_append, List.cons_append, List.cons_append,
        List.cons_append, List.nil_append, scanString, hex, ih]
      rfl

/-- A piece that has been read stands in front of what the rest is written by. -/
theorem append_of_piece {p : Piece} {s : Text} (first : p.Written s)
    (ih : ∀ {ps}, scanString t = some (ps, rest) → ∃ s, t = s ++ '"' :: rest ∧ Piece.Spells ps s)
    (h : (do
      let (pieces, rest) ← scanString t
      return (p :: pieces, rest)) = some (ps, rest)) :
    ∃ s', s ++ t = s' ++ '"' :: rest ∧ Piece.Spells ps s' := by
  simp only [Option.bind_eq_bind, Option.bind_eq_some_iff, Prod.exists, Option.pure_def,
    Option.some.injEq, Prod.mk.injEq] at h
  obtain ⟨ps', rest', hscan, rfl, rfl⟩ := h
  obtain ⟨s', rfl, later⟩ := ih hscan
  exact ⟨s ++ s', by simp, .cons first later⟩

theorem append_of_scanString (h : scanString t = some (ps, rest)) :
    ∃ s, t = s ++ '"' :: rest ∧ Piece.Spells ps s := by
  fun_induction scanString t generalizing ps with
  | case1 rest' =>
    cases h
    exact ⟨[], rfl, .nil⟩
  | case2 a b c d t ih =>
    obtain ⟨p, hex, h⟩ := Option.bind_eq_some_iff.mp h
    exact append_of_piece (.numbered hex) ih h
  | case3 c t _ ih =>
    obtain ⟨p, escape, h⟩ := Option.bind_eq_some_iff.mp h
    exact append_of_piece (.escaped escape) ih h
  | case5 c t hquote hnumbered hescaped hlow ih =>
    have hc : c ≠ '\\' := by
      rintro rfl
      -- a backslash at the very end is followed by no closing quote
      cases t with
      | nil => cases h
      | cons d t => exact hescaped d t rfl rfl
    exact append_of_piece (.plain (Nat.le_of_not_lt hlow) hquote hc) ih h
  | case4 | case6 => cases h

end Strings

/-! ## Rows of tokens -/

section Tokens

variable {token : Token} {tokens : List Token} {s t rest : Text}

theorem Lexeme.head (h : Lexeme token s) : ∃ c s', s = c :: s' ∧ isBlank c = Bool.false := by
  cases h with
  | number form =>
    cases form with
    | plain magnitude =>
      obtain ⟨c, t', rfl, hc⟩ := magnitude.head
      refine ⟨c, t', rfl, ?_⟩
      have (d : Char) (hd : d.isDigit = Bool.false) : c ≠ d := by
        rintro rfl
        simp [hc] at hd
      simp [isBlank, this]
    | negative => exact ⟨_, _, rfl, by decide⟩
  | _ => exact ⟨_, _, rfl, by decide⟩

theorem next?_of_head {c : Char} (hc : c.isDigit ∨ c = '-') :
    next? (c :: t) = (scanNumber (c :: t)).map fun (lexeme, rest) => (number lexeme, rest) := by
  rw [next?.eq_def]
  split
  case h_11 => rfl
  all_goals
    next heq =>
      cases heq
      rcases hc with hc | hc <;> cases hc

theorem next?_append (h : Lexeme token s) (hrest : token.IsNumeric → Ends goesOn rest) :
    next? (s ++ rest) = some (token, rest) := by
  cases h with
  | number form =>
    have hscan := scanNumber_append form (hrest ⟨_, rfl⟩)
    have hhead : ∃ c s', s = c :: s' ∧ (c.isDigit ∨ c = '-') := by
      cases form with
      | plain magnitude =>
        obtain ⟨c, s', hs, hc⟩ := magnitude.head
        exact ⟨c, s', hs, .inl hc⟩
      | negative => exact ⟨'-', _, rfl, .inr rfl⟩
    obtain ⟨c, s', rfl, hc⟩ := hhead
    rw [List.cons_append] at hscan ⊢
    rw [next?_of_head hc, hscan]
    rfl
  | string inside =>
    rw [List.cons_append, List.cons_append, List.append_assoc, List.singleton_append, next?,
      scanString_append inside]
    rfl
  | _ => rfl

theorem append_of_next? (h : next? t = some (token, rest)) : ∃ s, t = s ++ rest ∧ Lexeme token s := by
  rw [next?.eq_def] at h
  split at h
  case h_7 =>
    obtain ⟨found, hscan, hfound⟩ := Option.map_eq_some_iff.mp h
    cases hfound
    obtain ⟨s, ht, inside⟩ := append_of_scanString hscan
    exact ⟨'"' :: s ++ ['"'], by simp [ht], .string inside⟩
  case h_11 =>
    obtain ⟨found, hscan, hfound⟩ := Option.map_eq_some_iff.mp h
    cases hfound
    obtain ⟨ht, form⟩ := append_of_scanNumber hscan
    exact ⟨_, ht, .number form⟩
  all_goals cases h
  · exact ⟨_, rfl, .openBrace⟩
  · exact ⟨_, rfl, .closeBrace⟩
  · exact ⟨_, rfl, .openBracket⟩
  · exact ⟨_, rfl, .closeBracket⟩
  · exact ⟨_, rfl, .colon⟩
  · exact ⟨_, rfl, .comma⟩
  · exact ⟨_, rfl, .null⟩
  · exact ⟨_, rfl, .true⟩
  · exact ⟨_, rfl, .false⟩

/-- A number ends where the next token is not one. -/
theorem Spelled.ends (h : Spelled tokens t) (hhead : ∀ token ∈ tokens.head?, ¬token.IsNumeric) :
    Ends goesOn t := by
  cases h with
  | nil => simp [Ends]
  | @blank c _ _ blank _ =>
    have hc : c = ' ' ∨ c = '\n' ∨ c = '\t' ∨ c = '\r' := by
      simpa [isBlank, or_assoc] using blank
    rcases hc with rfl | rfl | rfl | rfl <;> simp [Ends, goesOn]
  | token first rest =>
    cases first with
    | number => exact absurd ⟨_, rfl⟩ (hhead _ rfl)
    | _ => simp [Ends, goesOn]

theorem ofText?_of_spelled (h : Spelled tokens t) (hseparated : Separated tokens) :
    ofText? t = some tokens := by
  induction h with
  | nil => rw [ofText?]
  | blank blank rest ih => rw [ofText?, if_pos blank, ih hseparated]
  | @token token tokens s t first rest ih =>
    obtain ⟨hhead, htail⟩ := List.isChain_cons.mp hseparated
    have hends : token.IsNumeric → Ends goesOn t := fun hnumeric =>
      rest.ends fun token htoken hnumeric' => hhead token htoken ⟨hnumeric, hnumeric'⟩
    have hnext := next?_append first hends
    obtain ⟨c, s, rfl, hc⟩ := first.head
    rw [List.cons_append] at hnext ⊢
    rw [ofText?, if_neg (by simp [hc])]
    split
    next hnone =>
      rw [hnext] at hnone
      cases hnone
    next hsome =>
      rw [hnext] at hsome
      cases hsome
      rw [ih htail]
      rfl

theorem spelled_of_ofText? (h : ofText? t = some tokens) : Spelled tokens t := by
  fun_induction ofText? t generalizing tokens with
  | case1 =>
    cases h
    exact .nil
  | case2 c rest hblank ih => exact .blank hblank (ih h)
  | case3 => cases h
  | case4 c rest hblank token rest' hnext ih =>
    obtain ⟨tokens, htokens, rfl⟩ := Option.map_eq_some_iff.mp h
    obtain ⟨s, hs, first⟩ := append_of_next? hnext
    rw [hs]
    exact .token first (ih htokens)

/-- The scanner cuts a text into the tokens by which it is spelled. -/
theorem ofText?_eq_some_iff (hseparated : Separated tokens) :
    ofText? t = some tokens ↔ Spelled tokens t :=
  ⟨spelled_of_ofText?, fun h => ofText?_of_spelled h hseparated⟩

theorem Spelled.append (hs : Spelled tokens s) {tokens' : List Token} (ht : Spelled tokens' t) :
    Spelled (tokens ++ tokens') (s ++ t) := by
  induction hs with
  | nil => exact ht
  | blank blank rest ih => exact .blank blank ih
  | token first rest ih =>
    rw [List.append_assoc]
    exact .token first ih

/-- Every token of a row is written in its own way. -/
theorem Spelled.lexeme (h : Spelled tokens t) (hmem : token ∈ tokens) : ∃ s, Lexeme token s := by
  induction h with
  | nil => cases hmem
  | blank blank rest ih => exact ih hmem
  | token first rest ih =>
    rcases List.mem_cons.mp hmem with rfl | hmem
    · exact ⟨_, first⟩
    · exact ih hmem

end Tokens

end Token
end BucketMount.Json
