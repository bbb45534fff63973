import BucketMount.Machine.Script.Basic

/-!
# The words of a script

How a word is read: where it ends, what is quoted in it, and for which of its parts something is put in. `readParts`
answers the word and the text that follows it, or says what has no end.
-/

namespace BucketMount.ScriptWord

/-- The mark that encloses a script whose output is put in. -/
def backquote : Char := Char.ofNat 96

def isNameChar (c : Char) : Bool := c.isAlphanum || c = '_'

def isName (t : Text) : Bool := !t.isEmpty && t.all isNameChar && !(t.headD '0').isDigit

/-- The parameters whose name is a mark. -/
def isMarkParameter (c : Char) : Bool :=
  c = '@' || c = '*' || c = '#' || c = '?' || c = '$' || c = '!' || c = '-'

inductive Enclosure where
  | single
  | double
  | brace
  | parenthesis
deriving DecidableEq, Repr

def Enclosure.closing : Enclosure → Char
  | single => '\''
  | double => '"'
  | brace => '\x7d'
  | parenthesis => ')'

/-- The enclosure that begins inside of another one with some text, and the number of characters it begins with. -/
def Enclosure.within (e : Enclosure) (t : Text) : Option (Enclosure × Nat) :=
  match e, t with
  | .single, _ => none
  | _, '$' :: '(' :: _ => some (.parenthesis, 2)
  | _, '$' :: '\x7b' :: _ => some (.brace, 2)
  | .double, _ => none
  | _, '"' :: _ => some (.double, 1)
  | _, '\'' :: _ => some (.single, 1)
  | .parenthesis, '(' :: _ => some (.parenthesis, 1)
  | _, _ => none

/-- The number of characters up to the end of the innermost of some enclosures and on to the end of the outermost.
The first argument bounds the number of characters. -/
def enclosedLength : Nat → List Enclosure → Text → Option Nat
  | _, [], _ => some 0
  | 0, _, _ | _, _ :: _, [] => none
  | fuel + 1, e :: outer, c :: t =>
    if c = e.closing then (enclosedLength fuel outer t).map (· + 1)
    else if c = '\\' ∧ e ≠ .single then (enclosedLength fuel (e :: outer) (t.drop 1)).map (· + 2)
    else
      match e.within (c :: t) with
      | some (inner, n) => (enclosedLength fuel (inner :: e :: outer) ((c :: t).drop n)).map (· + n)
      | none => (enclosedLength fuel (e :: outer) t).map (· + 1)

def enclosed? (e : Enclosure) (t : Text) : Option (Text × Text) :=
  (enclosedLength (t.length + 1) [e] t).bind fun n =>
    if n ≤ t.length then some (t.take (n - 1), t.drop n) else none

/-- What is wanted of a parameter, by what follows its name in braces. -/
def useOf (t : Text) : ParameterUse :=
  match t with
  | [] => .value
  | ':' :: '-' :: w => .orElse true w
  | ':' :: '=' :: w => .orSet true w
  | ':' :: '?' :: w => .orEnd true w
  | ':' :: '+' :: w => .ifThere true w
  | '-' :: w => .orElse false w
  | '=' :: w => .orSet false w
  | '?' :: w => .orEnd false w
  | '+' :: w => .ifThere false w
  | '%' :: '%' :: w => .without true true w
  | '%' :: w => .without true false w
  | '#' :: '#' :: w => .without false true w
  | '#' :: w => .without false false w
  | _ => .unknown

def parameterName (t : Text) : Text × Text :=
  match t with
  | [] => ([], [])
  | c :: rest =>
    if isMarkParameter c then ([c], rest)
    else if c.isDigit then (t.takeWhile Char.isDigit, t.dropWhile Char.isDigit)
    else (t.takeWhile isNameChar, t.dropWhile isNameChar)

def bracedPart (t : Text) (quoted : Bool) : WordPart :=
  let plain : WordPart :=
    let (name, rest) := parameterName t
    .parameter name (if name = [] then .unknown else useOf rest) quoted
  match t with
  | '#' :: rest =>
    let (name, more) := parameterName rest
    if name ≠ [] ∧ more = [] then .parameter name .length quoted else plain
  | _ => plain

/-- The part of a word that stands in parentheses after a dollar sign: the expression in a second pair of them, or a
script. -/
def parenthesizedPart (t : Text) (quoted : Bool) : WordPart :=
  match t with
  | '(' :: rest =>
    match enclosed? .parenthesis rest with
    | some (expression, []) => .calculation expression quoted
    | _ => .output t quoted
  | _ => .output t quoted

def openQuotes : Text := "Unterminated quoted string".toList

def openParentheses : Text := "end of file unexpected (expecting \")\")".toList

def openBraces : Text := "Missing '\x7d'".toList

def openBackquote : Text := "EOF in backquote substitution".toList

def readDollar (quoted : Bool) (t : Text) : Except Text (WordPart × Text) :=
  match t with
  | '(' :: rest =>
    match enclosed? .parenthesis rest with
    | some (inner, rest) => .ok (parenthesizedPart inner quoted, rest)
    | none => .error openParentheses
  | '\x7b' :: rest =>
    match enclosed? .brace rest with
    | some (inner, rest) => .ok (bracedPart inner quoted, rest)
    | none => .error openBraces
  | c :: rest =>
    if c.isDigit then .ok (.parameter [c] .value quoted, rest)
    else
      match parameterName t with
      | ([], _) => .ok (.literal ['$'] quoted, t)
      | (name, rest) => .ok (.parameter name .value quoted, rest)
  | [] => .ok (.literal ['$'] quoted, [])

/-- The text up to a backquote, without the marks that protect others, and what follows it. -/
def readBackquoted : Text → Option (Text × Text)
  | [] => none
  | '\\' :: c :: t =>
    let kept := if c = backquote || c = '\\' || c = '$' then [c] else ['\\', c]
    (readBackquoted t).map fun (inner, rest) => (kept ++ inner, rest)
  | c :: t =>
    if c = backquote then some ([], t) else (readBackquoted t).map fun (inner, rest) => (c :: inner, rest)

inductive Quoting where
  /-- As a word, which ends at a blank or an operator. -/
  | plain
  /-- As a word in braces, in which these are characters like others. -/
  | inner
  /-- Between double quotes. -/
  | double
  /-- Like the text between double quotes, but with these as characters like others. -/
  | text
  /-- Like the text between double quotes, in which further ones say nothing. -/
  | quotedInner
deriving DecidableEq, Repr

def endsWord (c : Char) : Bool :=
  c = ' ' || c = '\t' || c = '\n' || c = ';' || c = '&' || c = '|' || c = '<' || c = '>' || c = '(' || c = ')'

/-- The parts of a word, and what follows it. The first argument bounds the number of characters. -/
def readParts : Nat → Quoting → ScriptWord → Text → Except Text (ScriptWord × Text)
  | 0, _, _, _ | _ + 1, .double, _, [] => .error openQuotes
  | _ + 1, _, w, [] => .ok (w, [])
  | fuel + 1, q, w, c :: t =>
    let quoted := q = .double || q = .text || q = .quotedInner
    if q = .double ∧ c = '"' then .ok (w, t)
    else if q = .quotedInner ∧ c = '"' then readParts fuel q w t
    else if c = '\\' then
      match t with
      | [] => readParts fuel q (w.push c quoted) []
      | '\n' :: t => readParts fuel q w t
      | d :: t =>
        if !quoted || d = '$' || d = '\\' || d = backquote || (d = '"' && q ≠ .text) then
          readParts fuel q (w.push d true) t
        else readParts fuel q ((w.push c quoted).push d quoted) t
    else if c = '$' then do
      let (part, t) ← readDollar quoted t
      readParts fuel q (w ++ [part]) t
    else if c = backquote then
      match readBackquoted t with
      | some (script, t) => readParts fuel q (w ++ [.output script quoted]) t
      | none => .error openBackquote
    else if quoted then readParts fuel q (w.push c true) t
    else if c = '\'' then
      match Text.splitOnce c t with
      | some (inner, t) => readParts fuel q (w ++ [.literal inner true]) t
      | none => .error openQuotes
    else if c = '"' then do
      let (inner, t) ← readParts fuel .double [] t
      readParts fuel q (w ++ if inner = [] then [.literal [] true] else inner) t
    else if q = .plain ∧ endsWord c then .ok (w, c :: t)
    else if q = .plain ∧ w = [] ∧ c = '~' ∧ (t.head?.all fun d => d = '/' || endsWord d) then
      readParts fuel q [.parameter "HOME".toList .value true] t
    else readParts fuel q (w.push c false) t

def read (t : Text) : Except Text (ScriptWord × Text) := readParts (t.length + 1) .plain [] t

def readAll? (q : Quoting) (t : Text) : Option ScriptWord :=
  ((readParts (t.length + 1) q [] t).toOption.filter (·.2 = [])).map Prod.fst

end BucketMount.ScriptWord
