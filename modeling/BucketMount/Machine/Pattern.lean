import BucketMount.Text.Basic

/-!
# Patterns

Patterns for texts and file names: an asterisk stands for any text, a question mark for one character, and brackets
for one character out of some. A character that is quoted stands for itself. `Pattern.accepts` says which texts a
pattern fits, and `Pattern.cut` takes the part that it fits off an end of a text.
-/

namespace BucketMount

inductive PatternItem where
  | char (c : Char)
  | anyChar
  | anyText
  /-- One of the characters in these ranges or, if that is turned round, one that is in none of them. -/
  | oneOf (ranges : List (Char × Char)) (turned : Bool)
deriving DecidableEq, Repr

abbrev Pattern := List PatternItem

namespace PatternItem

def accepts : PatternItem → Char → Bool
  | char d, c => c = d
  | anyChar, _ | anyText, _ => true
  | oneOf ranges turned, c => (ranges.any fun (low, high) => low ≤ c && c ≤ high) != turned

end PatternItem

namespace Pattern

/-- A character of a written pattern, and whether it is quoted. -/
abbrev Written := List (Char × Bool)

def classRanges (name : String) : List (Char × Char) :=
  match name with
  | "digit" => [('0', '9')]
  | "lower" => [('a', 'z')]
  | "upper" => [('A', 'Z')]
  | "alpha" => [('a', 'z'), ('A', 'Z')]
  | "alnum" => [('a', 'z'), ('A', 'Z'), ('0', '9')]
  | "xdigit" => [('0', '9'), ('a', 'f'), ('A', 'F')]
  | "blank" => [(' ', ' '), ('\t', '\t')]
  | "space" => [(' ', ' '), ('\t', '\x0d')]
  | "punct" => [('!', '/'), (':', '@'), ('[', Char.ofNat 96), ('\x7b', '~')]
  | _ => []

/-- The ranges up to a closing bracket, and what follows it. The first argument bounds the number of characters. -/
def readRanges : Nat → List (Char × Char) → Written → Option (List (Char × Char) × Written)
  | 0, _, _ | _, _, [] => none
  | fuel + 1, ranges, ('[', false) :: (':', false) :: rest =>
    let name := rest.takeWhile (·.1.isAlpha)
    match rest.drop name.length with
    | (':', _) :: (']', _) :: rest =>
      readRanges fuel (ranges ++ classRanges (String.ofList (name.map Prod.fst))) rest
    | _ => readRanges fuel (ranges ++ [('[', '['), (':', ':')]) rest
  | fuel + 1, ranges, (c, quoted) :: rest =>
    if c = ']' ∧ ¬quoted ∧ ranges ≠ [] then some (ranges, rest)
    else
      match rest with
      | ('-', false) :: (d, dQuoted) :: more =>
        if d = ']' ∧ ¬dQuoted then readRanges fuel (ranges ++ [(c, c)]) rest
        else readRanges fuel (ranges ++ [(c, d)]) more
      | _ => readRanges fuel (ranges ++ [(c, c)]) rest

def readBrackets (t : Written) : Option (PatternItem × Written) :=
  let (turned, t) := match t with
    | ('!', false) :: t | ('^', false) :: t => (true, t)
    | t => (false, t)
  (readRanges (t.length + 1) [] t).map fun (ranges, rest) => (.oneOf ranges turned, rest)

/-- The pattern of some characters. The first argument bounds their number. -/
def readItems : Nat → Written → Pattern
  | 0, _ | _, [] => []
  | fuel + 1, (c, quoted) :: rest =>
    if quoted then .char c :: readItems fuel rest
    else if c = '*' then .anyText :: readItems fuel rest
    else if c = '?' then .anyChar :: readItems fuel rest
    else if c = '[' then
      match readBrackets rest with
      | some (item, rest) => item :: readItems fuel rest
      | none => .char c :: readItems fuel rest
    else .char c :: readItems fuel rest

def read (t : Written) : Pattern := readItems t.length t

/-- Whether a pattern is more than the text that it is written with. -/
def isGeneral (p : Pattern) : Bool :=
  p.any fun
    | .char _ => false
    | _ => true

def accepts : Pattern → Text → Bool
  | [], t => t.isEmpty
  | .anyText :: p, [] => accepts p []
  | .anyText :: p, c :: t => accepts p (c :: t) || accepts (.anyText :: p) t
  | _ :: _, [] => false
  | item :: p, c :: t => item.accepts c && accepts p t
termination_by p t => p.length + t.length

inductive Side where
  | front
  | back
deriving DecidableEq, Repr

/-- A text without the shortest or the longest part at one end that fits a pattern. -/
def cut (p : Pattern) (side : Side) (longest : Bool) (t : Text) : Text :=
  let places := List.range (t.length + 1)
  let places := if longest = decide (side = .front) then places.reverse else places
  match side with
  | .front => ((places.find? fun n => p.accepts (t.take n)).map t.drop).getD t
  | .back => ((places.find? fun n => p.accepts (t.drop n)).map t.take).getD t

end Pattern
end BucketMount
