import BucketMount.Machine.LinePattern

/-!
# Filters

What the usual filters make of a text: parts of it, its lines in order, lines that fit a pattern, replacements. Each
of them is a function of the text alone.
-/

namespace BucketMount.Filter

def lines (t : Text) : List Text :=
  match t.splitOn '\n' with
  | [] => []
  | pieces => if pieces.getLast? = some [] then pieces.dropLast else pieces

def unlines (l : List Text) : Text := l.flatMap (· ++ ['\n'])

def isBefore (a b : Text) : Bool := !b.lex a fun c d => decide (c.toNat < d.toNat)

def leadingNumber (t : Text) : Int :=
  let t := t.dropWhile (· = ' ')
  let digits (t : Text) : Int := (Text.readDecimal (t.takeWhile Char.isDigit)).getD 0
  match t with
  | '-' :: t => -digits t
  | t => digits t

def isBeforeByNumber (a b : Text) : Bool :=
  leadingNumber a < leadingNumber b || (leadingNumber a = leadingNumber b && isBefore a b)

def sorted (byNumber reversed single : Bool) (l : List Text) : List Text :=
  let l := l.mergeSort (if byNumber then isBeforeByNumber else isBefore)
  let l := if single then l.eraseDups else l
  if reversed then l.reverse else l

/-- The lines without those that repeat the one before, each with the number of times. -/
def counted : List Text → List (Nat × Text)
  | [] => []
  | a :: rest =>
    match counted rest with
    | (n, b) :: more => if a = b then (n + 1, b) :: more else (1, a) :: (n, b) :: more
    | [] => [(1, a)]

/-- The characters that a set stands for, with ranges written out. -/
def charSet : Text → List Char
  | '\\' :: 'n' :: t => '\n' :: charSet t
  | '\\' :: 't' :: t => '\t' :: charSet t
  | '\\' :: c :: t => c :: charSet t
  | a :: '-' :: b :: t => (List.range (b.toNat + 1 - a.toNat)).map (fun i => Char.ofNat (a.toNat + i)) ++ charSet t
  | c :: t => c :: charSet t
  | [] => []

/-- A text in which characters of a set stand for those of another one in the same place; the last one there stands
for all that are left. -/
def translated (source target : List Char) (t : Text) : Text :=
  t.map fun c =>
    match source.idxOf? c with
    | some i => (target[i]?).getD (target.getLast?.getD c)
    | none => c

/-- A text in which a character of a set does not follow itself. -/
def squeezed (set : List Char) : Text → Text
  | a :: b :: t => if a = b ∧ a ∈ set then squeezed set (b :: t) else a :: squeezed set (b :: t)
  | t => t

/-- The numbers that a list of places and ranges of places names. -/
def isListed (list : Text) (n : Nat) : Bool :=
  (list.splitOn ',').any fun range =>
    match Text.splitOnce '-' range with
    | none => Text.readDecimal range = some n
    | some (low, high) => (Text.readDecimal low).getD 1 ≤ n && (Text.readDecimal high).all (n ≤ ·)

def listed {α : Type} (list : Text) (l : List α) : List α :=
  ((l.zipIdx 1).filter fun (_, i) => isListed list i).map Prod.fst

/-- The fields of a line in the places that are named; a line without a separator stays as it is. -/
def fields (separator : Char) (list : Text) (line : Text) : Text :=
  if separator ∈ line then [separator].intercalate (listed list (line.splitOn separator)) else line

/-- What is put in the place of a part that a pattern fits. -/
def replacement (fitted : Text) : Text → Text
  | '\\' :: 'n' :: t => '\n' :: replacement fitted t
  | '\\' :: c :: t => c :: replacement fitted t
  | '&' :: t => fitted ++ replacement fitted t
  | c :: t => c :: replacement fitted t
  | [] => []

/-- A line with a replacement for the first part that a pattern fits, or for all of them. The first argument bounds
their number. -/
def replaced (p : LinePattern) (by_ : Text) (all : Bool) : Nat → Text → Text
  | 0, t => t
  | fuel + 1, t =>
    match p.find? t with
    | none => t
    | some (i, n) =>
      let rest := t.drop (i + n)
      let done := t.take i ++ replacement ((t.drop i).take n) by_
      if ¬all ∨ p.atStart then done ++ rest
      else if n = 0 then
        match rest with
        | [] => done
        | c :: rest => done ++ c :: replaced p by_ all fuel rest
      else if rest = [] then done
      else done ++ replaced p by_ all fuel rest

/-- The pieces of a text that a character separates; after a backslash it belongs to the piece. -/
def pieces (separator : Char) : Text → List Text
  | [] => [[]]
  | '\\' :: c :: t =>
    match pieces separator t with
    | first :: more => (if c = separator then c :: first else '\\' :: c :: first) :: more
    | [] => [[c]]
  | c :: t =>
    match pieces separator t with
    | first :: more => if c = separator then [] :: first :: more else (c :: first) :: more
    | [] => [[c]]

def edited (extended : Bool) (command line : Text) : Option Text :=
  match command with
  | 's' :: separator :: rest =>
    match pieces separator rest with
    | [pattern, by_, flags] =>
      some (replaced (LinePattern.read extended pattern) by_ ('g' ∈ flags) (line.length + 1) line)
    | _ => none
  | _ => none

end BucketMount.Filter
