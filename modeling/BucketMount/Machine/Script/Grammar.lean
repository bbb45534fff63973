import BucketMount.Machine.Script.Lexeme

/-!
# The grammar of scripts

A script is read line by line, and a line is run before the next one is read: where a line cannot be read, those
before it still count. `Script.parse` therefore answers a script for every text, with `Script.unreadable` in the
place of such a line.
-/

namespace BucketMount.Script

open Lexeme (Located keyword endOfLine endOfText)

/-- A reader of lexemes. It says in which line something does not belong where it stands, and what. -/
abbrev Reading := StateT (List Located) (Except (Nat × Text))

def peekLocated : Reading Located := fun l => .ok (l.headD (0, endOfText), l)

def peek : Reading Lexeme := Prod.snd <$> peekLocated

def advance : Reading Unit := modify (·.drop 1)

/-- Leaves the next lexeme behind if it is this one, and tells so. -/
def accept (l : Lexeme) : Reading Bool := do
  if (← peek) = l then
    advance
    return true
  else return false

/-- The words that have a meaning of their own where a command begins. -/
def reserved : List Text :=
  ["if", "then", "else", "elif", "fi", "for", "while", "until", "do", "done", "case", "esac", "\x7b", "\x7d", "!"].map
    String.toList

def named (l : Lexeme) : Text :=
  let quoted (t : Text) : Text := '"' :: t ++ ['"']
  if l = endOfText then "end of file".toList
  else if l = endOfLine then "newline".toList
  else
    match l with
    | .operator s => quoted s.toList
    | .word [.literal t false] => if reserved.contains t then quoted t else "word".toList
    | .direct _ _ | .given _ _ => "redirection".toList
    | _ => "word".toList

def stop {α : Type} (reason : Text) : Reading α := do
  let (line, l) ← peekLocated
  match l with
  | .unfinished reason => throw (line, reason)
  | _ => throw (line, reason)

/-- The next lexeme does not belong where it stands; another one may be expected there. -/
def unexpected {α : Type} (expected : Option Text) : Reading α := do
  let hint := expected.elim [] fun t => " (expecting ".toList ++ t ++ [')']
  stop (named (← peek) ++ " unexpected".toList ++ hint)

def demand (l : Lexeme) : Reading Unit := do
  let shown : Text := match l with
    | .word w => '"' :: w.text ++ ['"']
    | l => named l
  if ← accept l then pure () else unexpected (some shown)

def skipLines : Reading Unit := modify (·.dropWhile (·.2 = endOfLine))

/-- The words that can only close what others have opened. -/
def closers : List Lexeme :=
  ["then", "else", "elif", "fi", "do", "done", "esac", "\x7d"].map keyword ++
    [.operator ")", .operator ";;", endOfText]

def readTarget : Reading ScriptWord := do
  match ← peek with
  | .word w => do
    advance
    return w
  | _ => unexpected none

def readRedirection? : Reading (Option Redirection) := do
  match ← peek with
  | .direct descriptor direction => do
    advance
    let w ← readTarget
    return some <| match direction with
      | .into => .toFile (descriptor.getD 1) false w
      | .onto => .toFile (descriptor.getD 1) true w
      | .from => .fromFile (descriptor.getD 0) w
      | .same => .same (descriptor.getD 1) w
  | .given descriptor w => do
    advance
    return some (.fromText (descriptor.getD 0) w)
  | _ => return none

/-- The redirections at this place. The first argument bounds their number. -/
def readRedirections : Nat → Reading (List Redirection)
  | 0 => return []
  | fuel + 1 => do
    match ← readRedirection? with
    | some r => return r :: (← readRedirections fuel)
    | none => return []

/-- The variable that a word puts something into, and what it puts there. -/
def assignment? (w : ScriptWord) : Option (Text × ScriptWord) :=
  match w with
  | .literal t false :: rest =>
    match Text.splitOnce '=' t with
    | some (name, value) =>
      if ScriptWord.isName name then some (name, if value = [] then rest else .literal value false :: rest) else none
    | none => none
  | _ => none

/-- The rest of a simple command. The first argument bounds the number of its parts. -/
def readSimple (line : Nat) : Nat → List (Text × ScriptWord) → List ScriptWord → List Redirection → Reading Script
  | 0, _, _, _ => unexpected none
  | fuel + 1, assignments, words, redirections => do
    match ← readRedirection? with
    | some r => readSimple line fuel assignments words (redirections ++ [r])
    | none =>
      match ← peek with
      | .word w => do
        advance
        match if words = [] then assignment? w else none with
        | some a => readSimple line fuel (assignments ++ [a]) words redirections
        | none => readSimple line fuel assignments (words ++ [w]) redirections
      | _ =>
        if assignments = [] ∧ words = [] ∧ redirections = [] then unexpected none
        else return .command line assignments words redirections

def readWords : Nat → Reading (List ScriptWord)
  | 0 => return []
  | fuel + 1 => do
    match ← peek with
    | .word w => do
      advance
      return w :: (← readWords fuel)
    | _ => return []

/-- The patterns before a script that is to be selected. The first argument bounds their number. -/
def readPatterns : Nat → Reading (List ScriptWord)
  | 0 => unexpected none
  | fuel + 1 => do
    let w ← match ← peek with
      | .word w => pure w
      | _ => unexpected (some "\")\"".toList)
    advance
    if ← accept (.operator "|") then return w :: (← readPatterns fuel)
    else
      demand (.operator ")")
      return [w]

def ofItems : List Script → Script
  | [] => .nothing
  | [s] => s
  | items => .list items

def definition? : Reading (Option Text) := do
  match (← get).map Prod.snd with
  | .word w :: .operator "(" :: _ =>
    if (assignment? w).isSome then return none
    else
      modify (·.drop 2)
      demand (.operator ")")
      if ScriptWord.isName w.text ∧ ¬w.hasQuotes then return some w.text else stop "Bad function name".toList
  | _ => return none

mutual

/-- Commands up to a word that closes what another one has opened, or up to the end; there has to be one before such
a word. The first argument bounds the depth, here and below. -/
def readBlock : Nat → Reading Script
  | 0 => unexpected none
  | fuel + 1 => do
    skipLines
    if (← peek) = endOfText then return .nothing
    else
      let first ← readItem fuel
      return ofItems (first :: (← readItems fuel))

def readItems : Nat → Reading (List Script)
  | 0 => unexpected none
  | fuel + 1 => do
    skipLines
    if (← peek) ∈ closers then return []
    else
      let first ← readItem fuel
      return first :: (← readItems fuel)

/-- A chain of commands with the sign that separates it from the next one. -/
def readItem : Nat → Reading Script
  | 0 => unexpected none
  | fuel + 1 => do
    let s ← readChain fuel
    if ← accept (.operator "&") then return .background s
    else
      let l ← peek
      if l = .operator ";" ∨ l = endOfLine then
        advance
        return s
      else if l ∈ closers then return s
      else unexpected none

def readChain : Nat → Reading Script
  | 0 => unexpected none
  | fuel + 1 => do
    let s ← readPipeline fuel
    readJoined fuel s

/-- What is joined to a script, from the left. -/
def readJoined : Nat → Script → Reading Script
  | 0, _ => unexpected none
  | fuel + 1, s => do
    if ← accept (.operator "&&") then
      skipLines
      readJoined fuel (.both s (← readPipeline fuel))
    else if ← accept (.operator "||") then
      skipLines
      readJoined fuel (.either s (← readPipeline fuel))
    else return s

def readPipeline : Nat → Reading Script
  | 0 => unexpected none
  | fuel + 1 => do
    if ← accept (keyword "!") then return .opposite (← readPipeline fuel)
    else
      let stages ← readStages fuel
      match stages with
      | [s] => return s
      | stages => return .pipeline stages

def readStages : Nat → Reading (List Script)
  | 0 => unexpected none
  | fuel + 1 => do
    let s ← readCommand fuel
    if ← accept (.operator "|") then
      skipLines
      return s :: (← readStages fuel)
    else return [s]

def readCommand : Nat → Reading Script
  | 0 => unexpected none
  | fuel + 1 => do
    let (line, l) ← peekLocated
    if l ∈ closers then unexpected none
    else
      match ← readCompound? fuel l with
      | some s =>
        match ← readRedirections fuel with
        | [] => return s
        | rs => return .redirected s rs
      | none =>
        match ← definition? with
        | some name => do
          skipLines
          return .define name (← readCommand fuel)
        | none => readSimple line fuel [] [] []

/-- A group, condition or loop, if the lexeme begins one. -/
def readCompound? : Nat → Lexeme → Reading (Option Script)
  | 0, _ => unexpected none
  | fuel + 1, l =>
    if l = .operator "(" then do
      advance
      let s ← readBlock fuel
      demand (.operator ")")
      return some (.apart s)
    else if l = keyword "\x7b" then do
      advance
      let s ← readBlock fuel
      demand (keyword "\x7d")
      return some s
    else if l = keyword "if" then do
      advance
      some <$> readCondition fuel
    else if l = keyword "while" ∨ l = keyword "until" then do
      advance
      let condition ← readBlock fuel
      return some (.loop (l = keyword "while") condition (← readBody fuel))
    else if l = keyword "for" then do
      advance
      let name : Text := match ← peek with
        | .word w => w.text
        | _ => []
      if ¬ScriptWord.isName name then stop "Bad for loop variable".toList
      advance
      skipLines
      if ← accept (keyword "in") then
        let words ← readWords fuel
        if ¬((← accept (.operator ";")) || (← accept endOfLine)) then unexpected none
        skipLines
        return some (.forEach name (some words) (← readBody fuel))
      else
        let _ ← accept (.operator ";")
        skipLines
        return some (.forEach name none (← readBody fuel))
    else if l = keyword "case" then do
      advance
      let w ← match ← peek with
        | .word w => pure w
        | _ => unexpected (some "word".toList)
      advance
      skipLines
      demand (keyword "in")
      return some (.select w (← readArms fuel))
    else return none

def readBody : Nat → Reading Script
  | 0 => unexpected none
  | fuel + 1 => do
    demand (keyword "do")
    let s ← readBlock fuel
    demand (keyword "done")
    return s

def readCondition : Nat → Reading Script
  | 0 => unexpected none
  | fuel + 1 => do
    let condition ← readBlock fuel
    demand (keyword "then")
    let yes ← readBlock fuel
    if ← accept (keyword "elif") then return .choose condition yes (← readCondition fuel)
    else if ← accept (keyword "else") then
      let no ← readBlock fuel
      demand (keyword "fi")
      return .choose condition yes no
    else
      demand (keyword "fi")
      return .choose condition yes .nothing

/-- The scripts from which one is selected, each with its patterns. -/
def readArms : Nat → Reading (List (List ScriptWord × Script))
  | 0 => unexpected none
  | fuel + 1 => do
    skipLines
    if ← accept (keyword "esac") then return []
    else
      let _ ← accept (.operator "(")
      let patterns ← readPatterns fuel
      let arm := (patterns, ofItems (← readItems fuel))
      if ← accept (.operator ";;") then return arm :: (← readArms fuel)
      else if ← accept (keyword "esac") then return [arm]
      else unexpected (some "\";;\"".toList)

end

/-- The chains of commands in a line, up to its end. The first argument bounds their number. -/
def readLine : Nat → Reading (List Script)
  | 0 => unexpected none
  | fuel + 1 => do
    let s ← readChain (16 * (← get).length + 16)
    let inBackground ← accept (.operator "&")
    let isSeparated ← if inBackground then pure true else accept (.operator ";")
    let s := if inBackground then .background s else s
    let l ← peek
    if l = endOfText then return [s]
    else if l = endOfLine then
      advance
      return [s]
    else if isSeparated then return s :: (← readLine fuel)
    else unexpected none

def ofLexemes : Nat → List Located → List Script
  | 0, _ => []
  | fuel + 1, l =>
    let l := l.dropWhile (·.2 = endOfLine)
    if (l.headD (0, endOfText)).2 = endOfText then []
    else
      match readLine l.length l with
      | .ok (items, rest) => items ++ ofLexemes fuel rest
      | .error (line, reason) => [.unreadable line reason]

def parse (t : Text) : Script :=
  let l := Lexeme.ofText t
  ofItems (ofLexemes l.length l)

end BucketMount.Script
