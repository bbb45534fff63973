import BucketMount.Machine.Arithmetic
import BucketMount.Machine.Shell.Basic

/-!
# What words stand for

What is put in for the parts of a word, how the result is cut into fields, and which files a field with a pattern
names. A word that asks for a value which is not there ends the shell. How a script is run for its output is left
open here.
-/

namespace BucketMount

inductive Mark where
  /-- One that is quoted. -/
  | firm (c : Char)
  /-- One that was written without quotes. -/
  | plain (c : Char)
  /-- One that was put in without quotes. -/
  | loose (c : Char)
  /-- No character, but a quotation, which makes a field even if it is empty. -/
  | hold
  /-- No character, but the end of one argument and the start of the next. -/
  | gap
deriving DecidableEq, Repr

namespace Mark

def char? : Mark → Option Char
  | firm c | plain c | loose c => some c
  | hold | gap => none

def text (l : List Mark) : Text :=
  l.filterMap fun
    | gap => some ' '
    | m => m.char?

def pattern (l : List Mark) : Pattern :=
  Pattern.read (l.filterMap fun
    | firm c => some (c, true)
    | plain c | loose c => some (c, false)
    | hold | gap => none)

def ofText (quoted : Bool) (t : Text) : List Mark := if quoted then hold :: t.map firm else t.map loose

def putIn (l : List Mark) : List Mark :=
  l.map fun
    | plain c => loose c
    | m => m

def isWhite (c : Char) : Bool := c = ' ' || c = '\t' || c = '\n'

/-- Cuts marks into fields at separators that have been put in: at white ones together, at any other one by itself
with the white ones around it. `current` is the field that has begun, and `ended` says that the last one ended at a
white separator. -/
def fields (separators : Text) : Option (List Mark) → Bool → List Mark → List (List Mark)
  | current, _, [] => current.toList
  | current, _, gap :: l => current.toList ++ fields separators none false l
  | current, ended, loose c :: l =>
    if c ∈ separators then
      match current with
      | some field => field :: fields separators none (isWhite c) l
      | none =>
        if isWhite c then fields separators none ended l
        else if ended then fields separators none false l
        else [] :: fields separators none false l
    else fields separators (some (current.getD [] ++ [loose c])) false l
  | current, _, m :: l => fields separators (some (current.getD [] ++ [m])) false l

end Mark

namespace Shell

abbrev OutputOf := Text → Shell → Text × Shell

def numberText (n : Int64) : Text := if n < 0 then '-' :: Text.decimal n.toInt.natAbs else Text.decimal n.toInt.natAbs

def arithmeticAccess : Arithmetic.Access Shell where
  get name s :=
    match s.parameter? name with
    | none | some [] => .ok 0
    | some v => (Arithmetic.integer? v).elim (.error (.noNumber v)) .ok
  set name n s := s.assign name (numberText n)

/-- The arguments as they are put in: each one by itself, or together where that is how they are asked for. -/
def argumentMarks (s : Shell) (name : Text) (quoted : Bool) : List Mark :=
  if name = ['*'] ∧ quoted then Mark.ofText true ((s.parameter? name).getD [])
  else [Mark.gap].intercalate (s.arguments.map (Mark.ofText quoted))

/-- Whether a value counts as missing. -/
def isMissing (emptyToo : Bool) (v : Option Text) : Bool := v.elim true fun v => emptyToo && v.isEmpty

def innerWord (quoted : Bool) (t : Text) : ScriptWord :=
  (ScriptWord.readAll? (if quoted then .quotedInner else .inner) t).getD [.literal t quoted]

/-- What a word stands for. Words in words may do so `depth` levels deep. -/
def marks (outputOf : OutputOf) : Nat → ScriptWord → StateM Shell (List Mark)
  | _, [] => return []
  | 0, _ => return []
  | depth + 1, w => do
    let parts ← w.mapM fun part => do
      let s ← get
      if ¬s.goesOn then return []
      match part with
      | .literal t quoted => return if quoted then .hold :: t.map .firm else t.map .plain
      | .output script quoted =>
        let (text, after) := outputOf script s
        set { after with outputStatus := some after.status, status := s.status }
        return Mark.ofText quoted ((text.reverse.dropWhile (· = '\n')).reverse)
      | .calculation t quoted =>
        let l ← marks outputOf depth (innerWord true t)
        let s ← get
        match Arithmetic.read? (Mark.text l) with
        | none => do
          set (s.abort ("arithmetic expression: expecting primary: \"".toList ++ Mark.text l ++ ['"']))
          return []
        | some e =>
          match (e.eval arithmeticAccess).run s with
          | .ok (n, s) => do
            set s
            return Mark.ofText quoted (numberText n)
          | .error .divisionByZero => do
            set (s.abort ("arithmetic expression: division by zero: \"".toList ++ Mark.text l ++ ['"']))
            return []
          | .error (.noNumber t) => do
            set (s.abort ("Illegal number: ".toList ++ t))
            return []
      | .parameter name use quoted =>
        let isList := name = ['@'] || name = ['*']
        let value := if isList ∧ s.arguments = [] then none else s.parameter? name
        let shown (v : Text) : List Mark := if isList then s.argumentMarks name quoted else Mark.ofText quoted v
        let inner (t : Text) : StateM Shell (List Mark) := Mark.putIn <$> marks outputOf depth (innerWord quoted t)
        let needed : StateM Shell (List Mark) := do
          match value with
          | some v => return shown v
          | none => do
            if s.has 'u' ∧ ¬isList then set (s.abort (name ++ ": parameter not set".toList))
            return if quoted ∧ name ≠ ['@'] then [.hold] else []
        match use with
        | .value => needed
        | .length =>
          match value with
          | some v => return Mark.ofText quoted (Text.decimal (if isList then s.arguments.length else v.length))
          | none => do
            if s.has 'u' ∧ ¬isList then set (s.abort (name ++ ": parameter not set".toList))
            return Mark.ofText quoted ['0']
        | .orElse emptyToo t => if isMissing emptyToo value then inner t else return shown (value.getD [])
        | .orSet emptyToo t =>
          if isMissing emptyToo value then do
            let l ← inner t
            modify (·.assign name (Mark.text l))
            return l
          else return shown (value.getD [])
        | .orEnd emptyToo t =>
          if isMissing emptyToo value then do
            let l ← inner t
            let reason :=
              if t ≠ [] then Mark.text l
              else if emptyToo then "parameter not set or null".toList
              else "parameter not set".toList
            modify (·.abort (name ++ ": ".toList ++ reason))
            return []
          else return shown (value.getD [])
        | .ifThere emptyToo t => if isMissing emptyToo value then return (if quoted then [.hold] else []) else inner t
        | .without back longest t =>
          match value with
          | none => needed
          | some v => do
            let l ← marks outputOf depth (innerWord false t)
            return Mark.ofText quoted ((Mark.pattern l).cut (if back then .back else .front) longest v)
        | .unknown => do
          set (s.abort "Bad substitution".toList)
          return []
    return parts.flatten

def maxWordDepth : Nat := 32

def wordText (outputOf : OutputOf) (w : ScriptWord) : StateM Shell Text :=
  Mark.text <$> marks outputOf maxWordDepth w

def wordPattern (outputOf : OutputOf) (w : ScriptWord) : StateM Shell Pattern :=
  Mark.pattern <$> marks outputOf maxWordDepth w

/-- The names in a directory that fit a pattern. One that begins with a dot fits only if the pattern begins so, too.
-/
def fittingNames (s : Shell) (directory : Text) (p : Pattern) : List Text :=
  match s.find true (if directory = [] then ['.'] else directory) with
  | .ok (_, n) =>
    if n.permits s.caller .read then
      (Task.namesIn n).filter fun name => (name.head? ≠ some '.' || p.head? = some (.char '.')) && p.accepts name
    else []
  | .error _ => []

/-- The paths that begin with a given one and go on with names that fit some patterns. -/
def fittingPaths (s : Shell) : Text → List Pattern → List Text
  | start, [] => [start]
  | start, p :: rest =>
    let slash : Text := if rest = [] then [] else ['/']
    if p.isGeneral then (s.fittingNames start p).flatMap fun name => s.fittingPaths (start ++ name ++ slash) rest
    else
      let name := p.filterMap fun
        | .char c => some c
        | _ => none
      if rest = [] ∧ name ≠ [] ∧ (s.find false (start ++ name)).toOption.isNone then []
      else s.fittingPaths (start ++ name ++ slash) rest

/-- A field after the files have been put in that it names by a pattern. -/
def withFiles (s : Shell) (field : List Mark) : List Text :=
  let p := Mark.pattern field
  if s.has 'f' ∨ ¬p.isGeneral then [Mark.text field]
  else
    match s.fittingPaths [] (p.splitOn (.char '/')) with
    | [] => [Mark.text field]
    | paths => paths

def wordFields (outputOf : OutputOf) (w : ScriptWord) : StateM Shell (List Text) := do
  let l ← marks outputOf maxWordDepth w
  let s ← get
  return (Mark.fields s.separators none false l).flatMap s.withFiles

def allFields (outputOf : OutputOf) (ws : List ScriptWord) : StateM Shell (List Text) := do
  return (← ws.mapM (wordFields outputOf)).flatten

end Shell
end BucketMount
