import BucketMount.Text.Basic

/-!
# The command line

A line is a command with its options. An option takes one value, after an equals sign or as the next word; a word that
starts with a dash is no such value. A lone double dash ends the options. `Command.parse` reads the words of a line.
-/

namespace BucketMount

structure UserChoice where
  uid : Option Nat
  gid : Option Nat
deriving DecidableEq, Repr

inductive Command where
  | capture (mounts : List Text) (base : Option Text)
  | show
  | prolog (user : UserChoice)
  | epilog
  | step (user : UserChoice) (words : List Text)
  | probe (path : Text) (user : UserChoice)
deriving DecidableEq, Repr

/-- Why a line asks for nothing to be done. -/
inductive Refusal where
  | usage
  | help
  | version
deriving DecidableEq, Repr

namespace CommandLine

inductive ValueKind where
  | text
  | path
  | id
deriving DecidableEq, Repr

/-- The smallest number that is no user or group. -/
def idBound : Nat := 0x100000000

/-- A user or group in decimal digits, with a sign or without. After a minus sign only zero is one. -/
def readId : Text → Option Nat
  | '-' :: digits => (Text.readDecimal digits).filter (· = 0)
  | '+' :: digits => (Text.readDecimal digits).filter (· < idBound)
  | digits => (Text.readDecimal digits).filter (· < idBound)

def ValueKind.accepts : ValueKind → Text → Bool
  | text, _ => true
  | path, t => t ≠ []
  | id, t => (readId t).isSome

structure OptionSpec where
  name : Text
  kind : ValueKind
  repeats : Bool
deriving DecidableEq, Repr

structure Grammar where
  options : List OptionSpec
  /-- The words that are no options. -/
  free : List ValueKind
  /-- Whether it takes any words after a double dash. -/
  takesRest : Bool
deriving DecidableEq, Repr

structure Words where
  /-- The options with their values, in order. -/
  options : List (Text × Text)
  /-- The words that are no options. -/
  free : List Text
  /-- The words after a double dash, for a command that takes any. -/
  rest : List Text
deriving DecidableEq, Repr

namespace Words

def values (w : Words) (name : Text) : List Text := (w.options.filter (·.1 = name)).map Prod.snd

def user (w : Words) : UserChoice where
  uid := (w.values "uid".toList).head?.bind readId
  gid := (w.values "gid".toList).head?.bind readId

end Words

/-- Adds an option with its value, if the command has it and may still take it. -/
def addOption (g : Grammar) (w : Words) (name value : Text) : Except Refusal Words :=
  match g.options.find? (·.name = name) with
  | none => .error .usage
  | some spec =>
    if ¬spec.kind.accepts value ∨ (¬spec.repeats ∧ w.values name ≠ []) then .error .usage
    else .ok { w with options := w.options ++ [(name, value)] }

def addFree (g : Grammar) (w : Words) (word : Text) : Except Refusal Words :=
  match g.free[w.free.length]? with
  | none => .error .usage
  | some kind => if kind.accepts word then .ok { w with free := w.free ++ [word] } else .error .usage

/-- Whether a word cannot be the value of the option before it. -/
def startsWithDash : Text → Bool
  | '-' :: _ :: _ => true
  | _ => false

def scan (g : Grammar) (w : Words) : List Text → Except Refusal Words
  | [] => .ok w
  | ('-' :: '-' :: name) :: rest =>
    if name = [] then
      if g.takesRest then .ok { w with rest := rest } else rest.foldlM (addFree g) w
    else if name = "help".toList then .error .help
    else
      match Text.splitOnce '=' name with
      | some (name, value) => do scan g (← addOption g w name value) rest
      | none =>
        match rest with
        | [] => .error .usage
        | value :: rest =>
          if startsWithDash value then .error .usage
          else do scan g (← addOption g w name value) rest
  | ('-' :: c :: _) :: _ => if c = 'h' then .error .help else .error .usage
  | word :: rest => do scan g (← addFree g w word) rest

def Grammar.read (g : Grammar) (words : List Text) : Except Refusal Words := scan g ⟨[], [], []⟩ words

def userOptions : List OptionSpec := [⟨"uid".toList, .id, false⟩, ⟨"gid".toList, .id, false⟩]

def captureOptions : List OptionSpec := [⟨"mount".toList, .text, true⟩, ⟨"cwd".toList, .path, false⟩]

def parseCommand (name : Text) (words : List Text) : Except Refusal Command := do
  if name = "capture".toList then
    let w ← Grammar.read ⟨captureOptions, [], false⟩ words
    let mounts := w.values "mount".toList
    if mounts = [] then .error .usage else return .capture mounts (w.values "cwd".toList).head?
  else if name = "show".toList then
    let _ ← Grammar.read ⟨[], [], false⟩ words
    return .show
  else if name = "prolog".toList then
    return .prolog (← Grammar.read ⟨userOptions, [], false⟩ words).user
  else if name = "epilog".toList then
    let _ ← Grammar.read ⟨[], [], false⟩ words
    return .epilog
  else if name = "step".toList then
    let w ← Grammar.read ⟨userOptions, [], true⟩ words
    if w.rest = [] then .error .usage else return .step w.user w.rest
  else if name = "probe".toList then
    let w ← Grammar.read ⟨userOptions, [.path], false⟩ words
    match w.free with
    | [path] => return .probe path w.user
    | _ => .error .usage
  else .error .usage

def commandNames : List Text :=
  ["capture".toList, "show".toList, "prolog".toList, "epilog".toList, "step".toList, "probe".toList]

/-- The words after `help`: the name of a command, or nothing. -/
def parseHelp : List Text → Refusal
  | [] => .help
  | [name] => if name ∈ commandNames ∨ name = "help".toList then .help else .usage
  | _ => .usage

end CommandLine

def Command.parse : List Text → Except Refusal Command
  | [] => .error .usage
  | word :: rest =>
    if word = "--version".toList ∨ word.take 2 = "-V".toList then .error .version
    else if word = "--help".toList ∨ word.take 2 = "-h".toList then .error .help
    else if word = "help".toList then .error (CommandLine.parseHelp rest)
    else CommandLine.parseCommand word rest

end BucketMount
