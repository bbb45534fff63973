import BucketMount.Machine.Script.Word

/-!
# Lexemes

What the text of a script is made of: words, operators, and the marks that lead output and input elsewhere, each
with the number of its line. Text that a command reads from the lines after it has been taken out of these lines.
-/

namespace BucketMount

inductive Direction where
  | into
  | onto
  | from
  | same
deriving DecidableEq, Repr

inductive Lexeme where
  | word (w : ScriptWord)
  | operator (s : String)
  | direct (descriptor : Option Nat) (direction : Direction)
  /-- Text to be read as input. -/
  | given (descriptor : Option Nat) (text : ScriptWord)
  /-- Something without an end, and what is said of it. -/
  | unfinished (reason : Text)
deriving DecidableEq, Repr

namespace Lexeme

abbrev Located := Nat × Lexeme

def keyword (s : String) : Lexeme := .word [.literal s.toList false]

def endOfLine : Lexeme := .operator "\n"

def endOfText : Lexeme := .operator ""

/-- The operators, longer ones before those that they begin with. -/
def operators : List String := [";;", "&&", "||", ";", "&", "|", "(", ")"]

/-- The marks of directions, longer ones before those that they begin with. -/
def directions : List (String × Direction) :=
  [(">>", .onto), (">&", .same), ("<&", .same), (">|", .into), ("<>", .from), (">", .into), ("<", .from)]

/-- The lines before the one that is the given text, and the text after that line. Tabs at the start of a line are
left out if they do not count. -/
def readLines (delimiter : Text) (tabsCount : Bool) : Nat → Text → Text × Text
  | 0, t => ([], t)
  | fuel + 1, t =>
    if t = [] then ([], [])
    else
      let line := t.takeWhile (· ≠ '\n')
      let rest := t.drop (line.length + 1)
      let shown := if tabsCount then line else line.dropWhile (· = '\t')
      if shown = delimiter then ([], rest)
      else
        let (lines, rest) := readLines delimiter tabsCount fuel rest
        (shown ++ (t.drop line.length).take 1 ++ lines, rest)

/-- The text for the input of a command, whose end the next word tells: the text, and what follows without it. -/
def readGiven (tabsCount : Bool) (t : Text) : Except Text (Option ScriptWord × Text) := do
  let (mark, rest) ← ScriptWord.read (t.dropWhile fun c => c = ' ' || c = '\t')
  if mark = [] then return (none, rest)
  let line := rest.takeWhile (· ≠ '\n')
  let (lines, after) := readLines mark.text tabsCount rest.length (rest.drop (line.length + 1))
  let word := if mark.hasQuotes then [.literal lines true] else
    (ScriptWord.readAll? .text lines).getD [.literal lines true]
  return (some word, line ++ '\n' :: after)

def readDirection (descriptor : Option Nat) (t : Text) : Except Text (Lexeme × Text) :=
  let given (tabsCount : Bool) (rest : Text) : Except Text (Lexeme × Text) := do
    match ← readGiven tabsCount rest with
    | (some w, rest) => return (.given descriptor w, rest)
    | (none, rest) => return (.direct descriptor .from, rest)
  match t with
  | '<' :: '<' :: '-' :: rest => given false rest
  | '<' :: '<' :: rest => given true rest
  | t =>
    match directions.find? fun (mark, _) => mark.toList.isPrefixOf t with
    | some (mark, direction) =>
      let descriptor := if mark.front = '<' then some (descriptor.getD 0) else descriptor
      .ok (.direct descriptor direction, t.drop mark.length)
    | none => .ok (endOfText, [])

def isDirection (t : Text) : Bool := t.head? = some '<' || t.head? = some '>'

def next (t : Text) : Except Text (Lexeme × Text) :=
  let digits := t.takeWhile Char.isDigit
  if isDirection (t.drop digits.length) then readDirection (Text.readDecimal digits) (t.drop digits.length)
  else
    match operators.find? fun s => s.toList.isPrefixOf t with
    | some s => .ok (.operator s, t.drop s.length)
    | none => (ScriptWord.read t).map fun (w, rest) => (.word w, rest)

def lineEnds (t : Text) : Nat := t.count '\n'

/-- The lexemes of a text that starts in some line, up to the end of the text or to something without an end. The
first argument bounds the number of characters; `taken` is the number of lines that have been taken out after this
one. -/
def readAll : Nat → Nat → Nat → Text → List Located
  | 0, line, _, _ | _, line, _, [] => [(line, endOfText)]
  | fuel + 1, line, taken, c :: t =>
    if c = ' ' ∨ c = '\t' then readAll fuel line taken t
    else if c = '\n' then (line, endOfLine) :: readAll fuel (line + 1 + taken) 0 t
    else if c = '#' then readAll fuel line taken (t.dropWhile (· ≠ '\n'))
    else if c = '\\' ∧ t.head? = some '\n' then readAll fuel (line + 1) taken (t.drop 1)
    else
      match next (c :: t) with
      | .error reason => [(line + lineEnds (c :: t), .unfinished reason)]
      | .ok (l, rest) =>
        let lines := lineEnds (c :: t) - lineEnds rest
        let here := match l with
          | .given _ _ => 0
          | _ => lines
        (line, l) :: readAll fuel (line + here) (taken + lines - here) rest

def ofText (t : Text) : List Located := readAll (t.length + 1) 1 0 t

end Lexeme
end BucketMount
