import BucketMount.Machine.Arithmetic
import BucketMount.Machine.Task

/-!
# Conditions of scripts

The conditions that the test command decides: about files, texts and numbers, joined by "and", "or" and "not". A
condition that cannot be read is refused with the reason.
-/

namespace BucketMount.Condition

def isUnary (t : Text) : Bool :=
  match t with
  | ['-', c] => c ∈ "ednfhLrwxszpSbcugkOGt".toList
  | _ => false

def isBinary (t : Text) : Bool :=
  (["=", "!=", "<", ">", "-eq", "-ne", "-gt", "-ge", "-lt", "-le", "-ef", "-nt", "-ot"].map String.toList).contains t

def isRunnable (n : Node) (c : Credentials) : Bool :=
  n.permits c .search && (n.isDirectory || n.mode &&& 0o111 ≠ 0)

def unary (t : Task) (question : Char) (operand : Text) : Bool :=
  let file (follow : Bool) (holds : Node → Bool) : Bool :=
    match t.find follow operand with
    | .ok (_, n) => holds n
    | .error _ => false
  match question with
  | 'n' => operand ≠ []
  | 'z' => operand = []
  | 'e' => (t.deviceAt? operand).isSome || file true fun _ => true
  | 'd' => file true Node.isDirectory
  | 'f' => (t.deviceAt? operand).isNone && file true fun n =>
    match n.kind with
    | .regular _ => true
    | _ => false
  | 'h' | 'L' => file false fun n =>
    match n.kind with
    | .link _ => true
    | _ => false
  | 's' => file true fun n =>
    match n.kind with
    | .regular content => content ≠ []
    | _ => true
  | 'r' => file true (·.permits t.caller .read)
  | 'w' => file true (·.permits t.caller .write)
  | 'x' => file true (isRunnable · t.caller)
  | 'u' => file true (·.mode &&& 0o4000 ≠ 0)
  | 'g' => file true (·.mode &&& 0o2000 ≠ 0)
  | 'k' => file true (·.mode &&& 0o1000 ≠ 0)
  | 'O' => file true (·.owner = t.caller.effectiveUser)
  | 'G' => file true (·.group = t.caller.effectiveGroup)
  | 'c' => (t.deviceAt? operand).isSome
  | _ => false

def number (t : Text) : Except Text Int :=
  let digits := match t.dropWhile (· = ' ') with
    | '-' :: d | '+' :: d => d
    | d => d
  match Text.readDecimal ((digits.reverse.dropWhile (· = ' ')).reverse) with
  | some n => .ok (if (t.dropWhile (· = ' ')).head? = some '-' then -(n : Int) else n)
  | none => .error ("Illegal number: ".toList ++ t)

def binary (t : Task) (a question b : Text) : Except Text Bool :=
  let numbers (holds : Int → Int → Bool) : Except Text Bool := do
    return holds (← number a) (← number b)
  match String.ofList question with
  | "=" => .ok (a = b)
  | "!=" => .ok (a ≠ b)
  | "<" => .ok (a < b)
  | ">" => .ok (b < a)
  | "-eq" => numbers fun x y => x = y
  | "-ne" => numbers fun x y => x ≠ y
  | "-gt" => numbers fun x y => y < x
  | "-ge" => numbers fun x y => y ≤ x
  | "-lt" => numbers fun x y => x < y
  | "-le" => numbers fun x y => x ≤ y
  | "-ef" =>
    match t.find true a, t.find true b with
    | .ok (i, _), .ok (j, _) => .ok (i = j)
    | _, _ => .ok false
  | _ => .ok false

/-- What is said of a word after which something stands that does not belong there. -/
def unexpected (t : Text) : Text := t ++ ": unexpected operator".toList

mutual

/-- Conditions joined by "or". The first argument bounds the number of words, here and below. -/
def readEither (t : Task) : Nat → List Text → Except Text (Bool × List Text)
  | 0, _ => .error "argument expected".toList
  | fuel + 1, l => do
    let (a, rest) ← readBoth t fuel l
    match rest with
    | ['-', 'o'] :: rest =>
      let (b, rest) ← readEither t fuel rest
      return (a || b, rest)
    | rest => return (a, rest)

def readBoth (t : Task) : Nat → List Text → Except Text (Bool × List Text)
  | 0, _ => .error "argument expected".toList
  | fuel + 1, l => do
    let (a, rest) ← readNot t fuel l
    match rest with
    | ['-', 'a'] :: rest =>
      let (b, rest) ← readBoth t fuel rest
      return (a && b, rest)
    | rest => return (a, rest)

def readNot (t : Task) : Nat → List Text → Except Text (Bool × List Text)
  | 0, _ => .error "argument expected".toList
  | fuel + 1, l =>
    match l with
    | a :: o :: b :: rest =>
      if isBinary o then (binary t a o b).map (·, rest)
      else if a = ['!'] then (readNot t fuel (o :: b :: rest)).map fun (x, rest) => (!x, rest)
      else readOne t fuel l
    | ['!'] :: o :: rest => (readNot t fuel (o :: rest)).map fun (x, rest) => (!x, rest)
    | l => readOne t fuel l

def readOne (t : Task) : Nat → List Text → Except Text (Bool × List Text)
  | 0, _ => .error "argument expected".toList
  | fuel + 1, l =>
    match l with
    | [] => .error "argument expected".toList
    | [a] => .ok (a ≠ [], [])
    | ['('] :: o :: rest => do
      let (x, rest) ← readEither t fuel (o :: rest)
      match rest with
      | [')'] :: rest => return (x, rest)
      | _ => .error "closing paren expected".toList
    | a :: o :: rest =>
      if isUnary a then .ok (unary t (a.getD 1 'n') o, rest) else .ok (a ≠ [], o :: rest)

end

def holds (t : Task) (l : List Text) : Except Text Bool :=
  if l = [] then .ok false
  else do
    let (x, rest) ← readEither t (4 * l.length + 4) l
    if rest = [] then return x else .error (unexpected ((l[l.length - rest.length - 1]?).getD []))

end BucketMount.Condition
