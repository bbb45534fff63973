import BucketMount.Machine.Arithmetic

/-!
# Formatted output

The marks for special characters in texts that are printed, and formats: texts with directives, each of which shows an
argument. A format is used again as long as there are arguments; a missing argument counts as empty or zero.
-/

namespace BucketMount.Format

def isOctal (c : Char) : Bool := '0' ≤ c && c ≤ '7'

/-- The character of some octal digits, at most so many. -/
def octalChar (most : Nat) (t : Text) : Char × Text :=
  let digits := (t.take most).takeWhile isOctal
  (Char.ofNat (((Text.readOctal digits).getD 0) % 256), t.drop digits.length)

def namedChar? (c : Char) : Option Char :=
  match c with
  | 'a' => some '\x07'
  | 'b' => some '\x08'
  | 'f' => some '\x0c'
  | 'n' => some '\n'
  | 'r' => some '\x0d'
  | 't' => some '\t'
  | 'v' => some '\x0b'
  | '\\' => some '\\'
  | _ => none

/-- What stands for the text after a backslash, and what follows. -/
def readMark (t : Text) : Text × Text :=
  match t with
  | [] => (['\\'], [])
  | c :: rest =>
    if isOctal c then
      let (d, rest) := octalChar 3 t
      ([d], rest)
    else
      match namedChar? c with
      | some d => ([d], rest)
      | none => (['\\'], t)

/-- The text that a text with marks stands for, and whether it asks for an end of all output. The first argument
bounds the number of characters. -/
def unmark : Nat → Text → Text × Bool
  | 0, _ | _, [] => ([], false)
  | fuel + 1, c :: t =>
    if c ≠ '\\' then
      let (s, stop) := unmark fuel t
      (c :: s, stop)
    else
      match t with
      | 'c' :: _ => ([], true)
      | '0' :: rest =>
        let (d, rest) := octalChar 3 rest
        let (s, stop) := unmark fuel rest
        (d :: s, stop)
      | t =>
        let (d, rest) := readMark t
        let (s, stop) := unmark fuel rest
        (d ++ s, stop)

def unmarked (t : Text) : Text × Bool := unmark t.length t

structure Directive where
  flags : Text
  width : Nat
  precision : Option Nat
  kind : Char

namespace Directive

def pad (d : Directive) (t : Text) : Text :=
  let space := List.replicate (d.width - t.length) ' '
  if '-' ∈ d.flags then t ++ space else space ++ t

def padNumber (d : Directive) (sign digits : Text) : Text :=
  let digits := List.replicate (d.precision.getD 1 - digits.length) '0' ++ digits
  if '0' ∈ d.flags ∧ '-' ∉ d.flags ∧ d.precision = none then
    sign ++ List.replicate (d.width - sign.length - digits.length) '0' ++ digits
  else d.pad (sign ++ digits)

def showNumber (d : Directive) (n : Int64) : Text :=
  let unsigned := n.toUInt64.toNat
  match d.kind with
  | 'x' => d.padNumber (if '#' ∈ d.flags ∧ n ≠ 0 then ['0', 'x'] else []) (Nat.toDigits 16 unsigned)
  | 'X' =>
    d.padNumber (if '#' ∈ d.flags ∧ n ≠ 0 then ['0', 'X'] else []) ((Nat.toDigits 16 unsigned).map Char.toUpper)
  | 'o' => d.padNumber (if '#' ∈ d.flags then ['0'] else []) (Text.octal unsigned)
  | 'u' => d.padNumber [] (Text.decimal unsigned)
  | _ =>
    let sign := if n < 0 then ['-'] else if '+' ∈ d.flags then ['+'] else if ' ' ∈ d.flags then [' '] else []
    d.padNumber sign (Text.decimal n.toInt.natAbs)

end Directive

/-- The number that an argument stands for, and what is said of one that is none. A quote stands before a character
whose number is meant. -/
def numberOf (t : Text) : Int64 × Option Text :=
  match t with
  | [] => (0, none)
  | ['\'', c] | ['"', c] => (.ofNat c.toNat, none)
  | t =>
    match Arithmetic.integer? t with
    | some n => (n, none)
    | none =>
      let sign := (t.takeWhile fun c => c = '-' || c = '+').take 1
      match Arithmetic.integer? (sign ++ (t.drop sign.length).takeWhile Char.isDigit) with
      | some n => (n, some (t ++ ": not completely converted".toList))
      | none => (0, some (t ++ ": expected numeric value".toList))

structure State where
  out : Text
  arguments : List Text
  /-- What is said of arguments that could not be shown as they are. -/
  faults : List Text
  stopped : Bool

/-- The number at the start of a text, or the one that the next argument gives. -/
def readCount (t : Text) (s : State) : Option Nat × Text × State :=
  match t with
  | '*' :: rest =>
    let n := (numberOf (s.arguments.headD [])).1.toInt.toNat
    (some n, rest, { s with arguments := s.arguments.drop 1 })
  | t => (Text.readDecimal (t.takeWhile Char.isDigit), t.dropWhile Char.isDigit, s)

def showNext (d : Directive) (s : State) : State :=
  let argument := s.arguments.headD []
  let s := { s with arguments := s.arguments.drop 1 }
  let short (t : Text) : Text := d.precision.elim t t.take
  match d.kind with
  | 's' => { s with out := s.out ++ d.pad (short argument) }
  | 'c' => { s with out := s.out ++ d.pad (argument.take 1) }
  | 'b' =>
    let (t, stop) := unmarked argument
    { s with out := s.out ++ d.pad (short t), stopped := stop }
  | _ =>
    let (n, fault) := numberOf argument
    { s with out := s.out ++ d.showNumber n, faults := s.faults ++ fault.toList }

def unknown (kind : Text) : Text := '%' :: kind ++ ": invalid directive".toList

/-- Uses a format once. The first argument bounds the number of characters. -/
def useOnce : Nat → Text → State → State
  | 0, _, s | _, [], s => s
  | fuel + 1, c :: t, s =>
    if s.stopped then s
    else if c = '\\' then
      let (d, rest) := readMark t
      useOnce fuel rest { s with out := s.out ++ d }
    else if c ≠ '%' then useOnce fuel t { s with out := s.out ++ [c] }
    else
      match t with
      | '%' :: rest => useOnce fuel rest { s with out := s.out ++ ['%'] }
      | t =>
        let flags := t.takeWhile fun c => c ∈ ['-', '+', ' ', '#', '0']
        let (width, t, s) := readCount (t.drop flags.length) s
        let (precision, t, s) :=
          match t with
          | '.' :: rest =>
            let (n, rest, s) := readCount rest s
            (some (n.getD 0), rest, s)
          | t => (none, t, s)
        match t with
        | kind :: rest =>
          if kind ∈ "diouxXscb".toList then
            useOnce fuel rest (showNext ⟨flags, width.getD 0, precision, kind⟩ s)
          else { s with faults := s.faults ++ [unknown [kind]], stopped := true }
        | [] => { s with faults := s.faults ++ [unknown []], stopped := true }

/-- Uses a format as long as it takes arguments. The first argument bounds how often. -/
def useAgain (format : Text) : Nat → State → State
  | 0, s => s
  | fuel + 1, s =>
    let t := useOnce (format.length + 1) format s
    if t.stopped ∨ t.arguments = [] ∨ t.arguments.length = s.arguments.length then t else useAgain format fuel t

/-- A format with its arguments: what is shown, and what is said of those that could not be shown as they are. -/
def apply (format : Text) (arguments : List Text) : Text × List Text :=
  let s := useAgain format (arguments.length + 1) ⟨[], arguments, [], false⟩
  (s.out, s.faults)

end BucketMount.Format
