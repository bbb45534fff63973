import BucketMount.Json.Basic

/-!
# The tokens of JSON

`Json.Token.ofText?` cuts a text into tokens and skips the blanks between them. Every token takes at least one
character (`Json.Token.length_rest_lt`).
-/

namespace BucketMount.Json

inductive Token where
  | openBrace
  | closeBrace
  | openBracket
  | closeBracket
  | colon
  | comma
  | null
  | bool (b : Bool)
  | number (lexeme : Text)
  | string (text : Option Text)
deriving DecidableEq, Repr

/-- A piece of a string: a character, or half of one that is written as a surrogate. -/
inductive Piece where
  | char (c : Char)
  | half (n : Nat)
deriving DecidableEq, Repr

namespace Piece

def hexDigit? (c : Char) : Option Nat :=
  if '0' ≤ c ∧ c ≤ '9' then some (c.toNat - 48)
  else if 'a' ≤ c ∧ c ≤ 'f' then some (c.toNat - 87)
  else if 'A' ≤ c ∧ c ≤ 'F' then some (c.toNat - 55)
  else none

def ofNat (n : Nat) : Piece := if 0xD800 ≤ n ∧ n ≤ 0xDFFF then .half n else .char (Char.ofNat n)

/-- The piece written by four digits after a backslash and the letter u. -/
def ofHex? (a b c d : Char) : Option Piece := do
  let a ← hexDigit? a
  let b ← hexDigit? b
  let c ← hexDigit? c
  let d ← hexDigit? d
  return ofNat (((a * 16 + b) * 16 + c) * 16 + d)

def ofEscape? : Char → Option Piece
  | '"' => some (.char '"')
  | '\\' => some (.char '\\')
  | '/' => some (.char '/')
  | 'b' => some (.char '\x08')
  | 'f' => some (.char '\x0c')
  | 'n' => some (.char '\n')
  | 'r' => some (.char '\r')
  | 't' => some (.char '\t')
  | _ => none

/-- The text of the pieces: a first half has to be followed at once by a second half. -/
def text? : List Piece → Option Text
  | [] => some []
  | .char c :: rest => (text? rest).map (c :: ·)
  | .half high :: .half low :: rest =>
    if high < 0xDC00 ∧ 0xDC00 ≤ low then
      (text? rest).map (Char.ofNat (0x10000 + (high - 0xD800) * 1024 + (low - 0xDC00)) :: ·)
    else none
  | .half _ :: _ => none

end Piece

namespace Token

/-- The pieces of a string up to its closing quote, and what follows. -/
def scanString : Text → Option (List Piece × Text)
  | '"' :: rest => some ([], rest)
  | '\\' :: 'u' :: a :: b :: c :: d :: rest => do
    let piece ← Piece.ofHex? a b c d
    let (pieces, rest) ← scanString rest
    return (piece :: pieces, rest)
  | '\\' :: c :: rest => do
    let piece ← Piece.ofEscape? c
    let (pieces, rest) ← scanString rest
    return (piece :: pieces, rest)
  | c :: rest =>
    if c.toNat < 0x20 then none
    else do
      let (pieces, rest) ← scanString rest
      return (.char c :: pieces, rest)
  | [] => none

def digits (t : Text) : Text × Text := (t.takeWhile Char.isDigit, t.dropWhile Char.isDigit)

def digits? (t : Text) : Option (Text × Text) := if (digits t).1 = [] then none else some (digits t)

/-- The whole part of a number: zero alone, or digits that do not start with zero. -/
def scanWhole : Text → Option (Text × Text)
  | '0' :: rest => some (['0'], rest)
  | t => digits? t

def scanFraction : Text → Option (Text × Text)
  | '.' :: rest => (digits? rest).map fun (ds, rest) => ('.' :: ds, rest)
  | t => some ([], t)

def scanExponent : Text → Option (Text × Text)
  | c :: rest =>
    if c = 'e' ∨ c = 'E' then
      match rest with
      | s :: rest' =>
        if s = '+' ∨ s = '-' then (digits? rest').map fun (ds, rest) => (c :: s :: ds, rest)
        else (digits? rest).map fun (ds, rest) => (c :: ds, rest)
      | [] => none
    else some ([], c :: rest)
  | [] => some ([], [])

def scanMagnitude (t : Text) : Option (Text × Text) := do
  let (whole, t) ← scanWhole t
  let (fraction, t) ← scanFraction t
  let (exponent, t) ← scanExponent t
  return (whole ++ fraction ++ exponent, t)

def scanNumber : Text → Option (Text × Text)
  | '-' :: rest => (scanMagnitude rest).map fun (lexeme, rest) => ('-' :: lexeme, rest)
  | t => scanMagnitude t

/-- The token at the start of a text that does not start with a blank, and what follows. -/
def next? : Text → Option (Token × Text)
  | '\x7b' :: rest => some (openBrace, rest)
  | '\x7d' :: rest => some (closeBrace, rest)
  | '[' :: rest => some (openBracket, rest)
  | ']' :: rest => some (closeBracket, rest)
  | ':' :: rest => some (colon, rest)
  | ',' :: rest => some (comma, rest)
  | '"' :: rest => (scanString rest).map fun (pieces, rest) => (string (Piece.text? pieces), rest)
  | 'n' :: 'u' :: 'l' :: 'l' :: rest => some (null, rest)
  | 't' :: 'r' :: 'u' :: 'e' :: rest => some (bool true, rest)
  | 'f' :: 'a' :: 'l' :: 's' :: 'e' :: rest => some (bool false, rest)
  | t => (scanNumber t).map fun (lexeme, rest) => (number lexeme, rest)

theorem length_scanString {t : Text} {pieces : List Piece} {rest : Text}
    (h : scanString t = some (pieces, rest)) : rest.length < t.length := by
  fun_induction scanString t generalizing pieces rest with
  | case1 r => simp_all
  | case2 a b c d r ih =>
    simp only [Option.bind_eq_bind, Option.bind_eq_some_iff, Option.pure_def, Option.some.injEq,
      Prod.mk.injEq, Prod.exists] at h
    obtain ⟨p, _, ps, r', hs, _, rfl⟩ := h
    have := ih hs
    simp only [List.length_cons]
    omega
  | case3 c r _ ih =>
    simp only [Option.bind_eq_bind, Option.bind_eq_some_iff, Option.pure_def, Option.some.injEq,
      Prod.mk.injEq, Prod.exists] at h
    obtain ⟨p, _, ps, r', hs, _, rfl⟩ := h
    have := ih hs
    simp only [List.length_cons]
    omega
  | case4 => simp at h
  | case5 c r _ _ _ _ ih =>
    simp only [Option.bind_eq_bind, Option.bind_eq_some_iff, Option.pure_def, Option.some.injEq,
      Prod.mk.injEq, Prod.exists] at h
    obtain ⟨ps, r', hs, _, rfl⟩ := h
    have := ih hs
    simp only [List.length_cons]
    omega
  | case6 => simp at h

theorem length_digits? {t ds rest : Text} (h : digits? t = some (ds, rest)) : rest.length < t.length := by
  unfold digits? digits at h
  split at h
  · simp at h
  · rename_i hne
    simp only [Option.some.injEq, Prod.mk.injEq] at h
    obtain ⟨rfl, rfl⟩ := h
    have hlen : (t.takeWhile Char.isDigit).length + (t.dropWhile Char.isDigit).length = t.length := by
      rw [← List.length_append, List.takeWhile_append_dropWhile]
    have : 0 < (t.takeWhile Char.isDigit).length := List.length_pos_iff.2 hne
    omega

theorem length_scanWhole {t ds rest : Text} (h : scanWhole t = some (ds, rest)) :
    rest.length < t.length := by
  unfold scanWhole at h
  split at h
  · simp only [Option.some.injEq, Prod.mk.injEq] at h
    obtain ⟨_, rfl⟩ := h
    simp
  · exact length_digits? h

theorem length_scanFraction {t ds rest : Text} (h : scanFraction t = some (ds, rest)) :
    rest.length ≤ t.length := by
  unfold scanFraction at h
  split at h
  · simp only [Option.map_eq_some_iff, Prod.exists, Prod.mk.injEq] at h
    obtain ⟨a, b, hab, _, rfl⟩ := h
    have := length_digits? hab
    simp only [List.length_cons]
    omega
  · simp only [Option.some.injEq, Prod.mk.injEq] at h
    obtain ⟨_, rfl⟩ := h
    exact Nat.le_refl _

theorem length_scanExponent {t ds rest : Text} (h : scanExponent t = some (ds, rest)) :
    rest.length ≤ t.length := by
  unfold scanExponent at h
  split at h
  · split at h
    · split at h
      · split at h <;>
        · simp only [Option.map_eq_some_iff, Prod.exists, Prod.mk.injEq] at h
          obtain ⟨a, b, hab, _, rfl⟩ := h
          have := length_digits? hab
          simp only [List.length_cons] at *
          omega
      · simp at h
    · simp only [Option.some.injEq, Prod.mk.injEq] at h
      obtain ⟨_, rfl⟩ := h
      exact Nat.le_refl _
  · simp_all

theorem length_scanNumber {t lexeme rest : Text} (h : scanNumber t = some (lexeme, rest)) :
    rest.length < t.length := by
  have magnitude : ∀ {t lexeme rest : Text}, scanMagnitude t = some (lexeme, rest) →
      rest.length < t.length := by
    intro t lexeme rest h
    simp only [scanMagnitude, Option.bind_eq_bind, Option.bind_eq_some_iff, Option.pure_def,
      Option.some.injEq, Prod.mk.injEq, Prod.exists] at h
    obtain ⟨a, t₁, h₁, b, t₂, h₂, c, t₃, h₃, _, rfl⟩ := h
    have := length_scanWhole h₁
    have := length_scanFraction h₂
    have := length_scanExponent h₃
    omega
  unfold scanNumber at h
  split at h
  · simp only [Option.map_eq_some_iff, Prod.exists, Prod.mk.injEq] at h
    obtain ⟨a, b, hab, _, rfl⟩ := h
    have := magnitude hab
    simp only [List.length_cons]
    omega
  · exact magnitude h

/-- Every token takes at least one character. -/
theorem length_rest_lt {t : Text} {token : Token} {rest : Text} (h : next? t = some (token, rest)) :
    rest.length < t.length := by
  unfold next? at h
  split at h
  case h_7 =>
    simp only [Option.map_eq_some_iff, Prod.exists, Prod.mk.injEq] at h
    obtain ⟨a, b, hab, _, rfl⟩ := h
    have := length_scanString hab
    simp only [List.length_cons]
    omega
  case h_11 =>
    simp only [Option.map_eq_some_iff, Prod.exists, Prod.mk.injEq] at h
    obtain ⟨a, b, hab, _, rfl⟩ := h
    exact length_scanNumber hab
  all_goals
    simp only [Option.some.injEq, Prod.mk.injEq] at h
    obtain ⟨_, rfl⟩ := h
    simp only [List.length_cons]
    omega

def isBlank (c : Char) : Bool := c = ' ' || c = '\n' || c = '\t' || c = '\r'

def ofText? (t : Text) : Option (List Token) :=
  match t with
  | [] => some []
  | c :: rest =>
    if isBlank c then ofText? rest
    else
      match _hnext : next? (c :: rest) with
      | none => none
      | some (token, rest') => (ofText? rest').map (token :: ·)
termination_by t.length
decreasing_by
  · simp
  · exact length_rest_lt _hnext

end Token
end BucketMount.Json
