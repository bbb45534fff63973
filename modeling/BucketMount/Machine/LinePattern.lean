import BucketMount.Machine.Pattern

/-!
# Patterns of lines

Basic regular expressions without groups: characters, a dot for any character, brackets, repetitions, and marks for
the two ends of a line. `LinePattern.find?` answers the first place where one fits, with the longest part that it
fits there.
-/

namespace BucketMount

inductive Repetition where
  | once
  | atMostOnce
  | anyTimes
  | atLeastOnce
deriving DecidableEq, Repr

structure LinePattern where
  atStart : Bool
  items : List (PatternItem × Repetition)
  atEnd : Bool
deriving DecidableEq, Repr

namespace LinePattern

/-- The repetition that a mark stands for. Plus signs and question marks are such marks in extended patterns only. -/
def repetition? (extended : Bool) (c : Char) : Option Repetition :=
  if c = '*' then some .anyTimes
  else if extended ∧ c = '+' then some .atLeastOnce
  else if extended ∧ c = '?' then some .atMostOnce
  else none

def readItem (t : Text) : Option (PatternItem × Text) :=
  match t with
  | [] => none
  | '\\' :: c :: rest => some (.char c, rest)
  | '.' :: rest => some (.anyChar, rest)
  | '[' :: rest =>
    match Pattern.readBrackets (rest.map (·, false)) with
    | some (item, more) => some (item, more.map Prod.fst)
    | none => some (.char '[', rest)
  | c :: rest => some (.char c, rest)

/-- The items of a pattern, and whether it ends with the mark of the end. The first argument bounds their number. -/
def readItems (extended : Bool) : Nat → Text → List (PatternItem × Repetition) × Bool
  | 0, _ => ([], false)
  | fuel + 1, t =>
    if t = ['$'] then ([], true)
    else
      match readItem t with
      | none => ([], false)
      | some (item, rest) =>
        let (repetition, rest) :=
          match rest with
          | c :: more =>
            match repetition? extended c with
            | some r => (r, more)
            | none => (.once, rest)
          | [] => (.once, [])
        let (items, atEnd) := readItems extended fuel rest
        ((item, repetition) :: items, atEnd)

def read (extended : Bool) (t : Text) : LinePattern :=
  let atStart := t.head? = some '^'
  let t := if atStart then t.drop 1 else t
  let (items, atEnd) := readItems extended (t.length + 1) t
  ⟨atStart, items, atEnd⟩

/-- The pattern that only a text itself fits. -/
def ofText (t : Text) : LinePattern := ⟨false, t.map fun c => (.char c, .once), false⟩

/-- The length of the longest part at the start of a text that some items fit, going up to the end if that is asked
for. The first argument bounds the number of steps. -/
def lengthAt (atEnd : Bool) : Nat → List (PatternItem × Repetition) → Text → Option Nat
  | 0, _, _ => none
  | _ + 1, [], t => if atEnd ∧ t ≠ [] then none else some 0
  | fuel + 1, (item, repetition) :: rest, t =>
    let skip : Option Nat := lengthAt atEnd fuel rest t
    match t with
    | [] => if repetition = .anyTimes ∨ repetition = .atMostOnce then skip else none
    | c :: more =>
      let taken : Option Nat :=
        if ¬item.accepts c then none
        else
          match repetition with
          | .once | .atMostOnce => (lengthAt atEnd fuel rest more).map (· + 1)
          | .anyTimes | .atLeastOnce => (lengthAt atEnd fuel ((item, .anyTimes) :: rest) more).map (· + 1)
      match repetition with
      | .once | .atLeastOnce => taken
      | .atMostOnce | .anyTimes => taken.or skip

/-- The first place in a text where a pattern fits, and the length of the part that it fits. -/
def find? (p : LinePattern) (t : Text) : Option (Nat × Nat) :=
  let places := if p.atStart then [0] else List.range (t.length + 1)
  places.findSome? fun i => (lengthAt p.atEnd (p.items.length + t.length + 1) p.items (t.drop i)).map (i, ·)

end LinePattern
end BucketMount
