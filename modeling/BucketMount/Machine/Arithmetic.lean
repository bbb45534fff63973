import BucketMount.Text.Basic

/-!
# Arithmetic in scripts

Expressions over whole numbers of 64 bits, with variables. `Arithmetic.read?` reads an expression from its text, and
`Arithmetic.eval` gives its value or says why there is none.
-/

namespace BucketMount

inductive BinaryOperation where
  | either | both
  | bitOr | bitXor | bitAnd
  | equal | unequal
  | less | atMost | greater | atLeast
  | shiftLeft | shiftRight
  | add | subtract
  | multiply | divide | remainder
deriving DecidableEq, Repr

inductive UnaryOperation where
  | plus
  | minus
  | complement
  | opposite
deriving DecidableEq, Repr

inductive Arithmetic where
  | number (n : Int64)
  | variable (name : Text)
  | unary (operation : UnaryOperation) (a : Arithmetic)
  | binary (operation : BinaryOperation) (a b : Arithmetic)
  | choose (condition yes no : Arithmetic)
  /-- Puts a value, or the result of an operation with it, into a variable. -/
  | assign (name : Text) (operation : Option BinaryOperation) (a : Arithmetic)
deriving Repr

namespace BinaryOperation

def written : BinaryOperation → String
  | either => "||" | both => "&&"
  | bitOr => "|" | bitXor => "^" | bitAnd => "&"
  | equal => "==" | unequal => "!="
  | less => "<" | atMost => "<=" | greater => ">" | atLeast => ">="
  | shiftLeft => "<<" | shiftRight => ">>"
  | add => "+" | subtract => "-"
  | multiply => "*" | divide => "/" | remainder => "%"

/-- The operations, from the loosest to the tightest. -/
def all : List BinaryOperation :=
  [either, both, bitOr, bitXor, bitAnd, equal, unequal, less, atMost, greater, atLeast, shiftLeft, shiftRight, add,
    subtract, multiply, divide, remainder]

/-- How tightly an operation binds. -/
def level : BinaryOperation → Nat
  | either => 1
  | both => 2
  | bitOr => 3
  | bitXor => 4
  | bitAnd => 5
  | equal | unequal => 6
  | less | atMost | greater | atLeast => 7
  | shiftLeft | shiftRight => 8
  | add | subtract => 9
  | multiply | divide | remainder => 10

def ofWritten? (t : String) : Option BinaryOperation := all.find? (·.written = t)

/-- Whether an operation may stand before the sign of an assignment. -/
def changes (o : BinaryOperation) : Bool := 8 ≤ o.level || (3 ≤ o.level && o.level ≤ 5)

def ofBool (b : Bool) : Int64 := if b then 1 else 0

def apply (o : BinaryOperation) (a b : Int64) : Option Int64 :=
  match o with
  | either => some (ofBool (a ≠ 0 || b ≠ 0))
  | both => some (ofBool (a ≠ 0 && b ≠ 0))
  | bitOr => some (a ||| b)
  | bitXor => some (a ^^^ b)
  | bitAnd => some (a &&& b)
  | equal => some (ofBool (a = b))
  | unequal => some (ofBool (a ≠ b))
  | less => some (ofBool (a < b))
  | atMost => some (ofBool (a ≤ b))
  | greater => some (ofBool (b < a))
  | atLeast => some (ofBool (b ≤ a))
  | shiftLeft => some (a <<< b)
  | shiftRight => some (a >>> b)
  | add => some (a + b)
  | subtract => some (a - b)
  | multiply => some (a * b)
  | divide => if b = 0 then none else some (a / b)
  | remainder => if b = 0 then none else some (a % b)

end BinaryOperation

namespace UnaryOperation

def ofWritten? : String → Option UnaryOperation
  | "+" => some plus
  | "-" => some minus
  | "~" => some complement
  | "!" => some opposite
  | _ => none

def apply : UnaryOperation → Int64 → Int64
  | plus, a => a
  | minus, a => -a
  | complement, a => ~~~a
  | opposite, a => BinaryOperation.ofBool (a = 0)

end UnaryOperation

namespace Arithmetic

inductive Token where
  | number (n : Int64)
  | name (t : Text)
  | mark (s : String)
deriving DecidableEq, Repr

/-- The marks, longer ones before those that they begin with. -/
def marks : List String :=
  ["<<=", ">>=", "&&", "||", "==", "!=", "<=", ">=", "<<", ">>", "+=", "-=", "*=", "/=", "%=", "&=", "|=", "^=",
    "+", "-", "*", "/", "%", "<", ">", "=", "!", "~", "&", "|", "^", "(", ")", "?", ":"]

def digitValue? (c : Char) : Option Nat :=
  if c.isDigit then some (c.toNat - 48)
  else if 'a' ≤ c ∧ c ≤ 'f' then some (c.toNat - 87)
  else if 'A' ≤ c ∧ c ≤ 'F' then some (c.toNat - 55)
  else none

def ofDigits? (base : Nat) (t : Text) : Option Nat :=
  t.foldlM (fun n c => ((digitValue? c).filter (· < base)).map (base * n + ·)) 0

/-- The number that a constant stands for: a zero in front makes it octal, and a zero with an x hexadecimal. -/
def constant? : Text → Option Nat
  | [] => none
  | ['0'] => some 0
  | '0' :: 'x' :: t | '0' :: 'X' :: t => if t = [] then none else ofDigits? 16 t
  | '0' :: t => ofDigits? 8 t
  | t => ofDigits? 10 t

/-- The number that a text stands for, with a sign or without and blanks on either side. -/
def integer? (t : Text) : Option Int64 :=
  let isSpace (c : Char) : Bool := c = ' ' || c = '\t' || c = '\n'
  let t := ((t.dropWhile isSpace).reverse.dropWhile isSpace).reverse
  match t with
  | '-' :: t => (constant? t).map fun n => -Int64.ofNat n
  | '+' :: t => (constant? t).map Int64.ofNat
  | t => (constant? t).map Int64.ofNat

def isNameChar (c : Char) : Bool := c.isAlphanum || c = '_'

/-- The tokens of a text. The first argument bounds the number of characters. -/
def tokens? : Nat → Text → Option (List Token)
  | _, [] => some []
  | 0, _ => none
  | fuel + 1, c :: t =>
    if c = ' ' ∨ c = '\t' ∨ c = '\n' then tokens? fuel t
    else if isNameChar c then
      let word := (c :: t).takeWhile isNameChar
      let rest := (c :: t).dropWhile isNameChar
      if c.isDigit then do
        let n ← constant? word
        return .number (.ofNat n) :: (← tokens? fuel rest)
      else return .name word :: (← tokens? fuel rest)
    else do
      let mark ← marks.find? fun m => m.toList.isPrefixOf (c :: t)
      return .mark mark :: (← tokens? fuel ((c :: t).drop mark.length))

/-- The operation with which an assignment is written, if the mark is one of an assignment. -/
def assignment? (mark : String) : Option (Option BinaryOperation) :=
  if mark = "=" then some none
  else
    (BinaryOperation.all.find? fun o => o.changes && o.written ++ "=" = mark).map some

mutual

/-- Reads an expression. The first argument bounds the depth. -/
def readWhole : Nat → List Token → Option (Arithmetic × List Token)
  | 0, _ => none
  | fuel + 1, l =>
    match l with
    | .name x :: .mark m :: rest =>
      match assignment? m with
      | some operation => (readWhole fuel rest).map fun (a, rest) => (.assign x operation a, rest)
      | none => readChoice fuel l
    | l => readChoice fuel l

/-- Reads an expression without an assignment outside of parentheses. -/
def readChoice : Nat → List Token → Option (Arithmetic × List Token)
  | 0, _ => none
  | fuel + 1, l => do
    let (condition, rest) ← readLevel fuel 1 l
    match rest with
    | .mark "?" :: rest =>
      let (yes, rest) ← readWhole fuel rest
      match rest with
      | .mark ":" :: rest =>
        let (no, rest) ← readChoice fuel rest
        return (.choose condition yes no, rest)
      | _ => none
    | rest => return (condition, rest)

/-- Reads an expression with operations that bind at least as tightly as a level says. -/
def readLevel : Nat → Nat → List Token → Option (Arithmetic × List Token)
  | 0, _, _ => none
  | fuel + 1, level, l => do
    let (a, rest) ← readTerm fuel l
    readMore fuel level a rest

def readMore : Nat → Nat → Arithmetic → List Token → Option (Arithmetic × List Token)
  | 0, _, _, _ => none
  | fuel + 1, level, a, l =>
    match l with
    | .mark m :: rest =>
      match (BinaryOperation.ofWritten? m).filter (level ≤ ·.level) with
      | some operation => do
        let (b, rest) ← readLevel fuel (operation.level + 1) rest
        readMore fuel level (.binary operation a b) rest
      | none => some (a, l)
    | l => some (a, l)

def readTerm : Nat → List Token → Option (Arithmetic × List Token)
  | 0, _ => none
  | fuel + 1, l =>
    match l with
    | .number n :: rest => some (.number n, rest)
    | .name x :: rest => some (.variable x, rest)
    | .mark "(" :: rest => do
      let (a, rest) ← readWhole fuel rest
      match rest with
      | .mark ")" :: rest => return (a, rest)
      | _ => none
    | .mark m :: rest => do
      let operation ← UnaryOperation.ofWritten? m
      let (a, rest) ← readTerm fuel rest
      return (.unary operation a, rest)
    | [] => none

end

def read? (t : Text) : Option Arithmetic := do
  let l ← tokens? t.length t
  let (a, rest) ← readWhole (16 * l.length + 16) l
  if rest = [] then some a else none

inductive Fault where
  | divisionByZero
  /-- A variable has a value that is no number. -/
  | noNumber (t : Text)
deriving DecidableEq, Repr

structure Access (σ : Type) where
  get : Text → σ → Except Fault Int64
  set : Text → Int64 → σ → σ

/-- The result of an operation, if the second number is one that it can be done with. -/
def applied {σ : Type} (operation : BinaryOperation) (a b : Int64) : StateT σ (Except Fault) Int64 :=
  match operation.apply a b with
  | some n => return n
  | none => throw .divisionByZero

/-- The value of an expression. Of the operands of "and" and "or" the second one counts only where the first one
does not settle the result. -/
def eval {σ : Type} (access : Access σ) : Arithmetic → StateT σ (Except Fault) Int64
  | .number n => return n
  | .variable x => fun s => (access.get x s).map (·, s)
  | .unary operation a => do
    return operation.apply (← eval access a)
  | .binary operation a b => do
    let a ← eval access a
    if operation = .either ∧ a ≠ 0 then return 1
    else if operation = .both ∧ a = 0 then return 0
    else applied operation a (← eval access b)
  | .choose condition yes no => do
    if (← eval access condition) ≠ 0 then eval access yes else eval access no
  | .assign x operation a => do
    let b ← eval access a
    let value ← match operation with
      | none => pure b
      | some operation => do
        let a ← fun s => (access.get x s).map (·, s)
        applied operation a b
    modify (access.set x value)
    return value

end Arithmetic
end BucketMount
