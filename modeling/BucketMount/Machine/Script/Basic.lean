import BucketMount.Text.Basic

/-!
# Shell scripts

The shell language: words with quoting and with what is put in for parameters, commands, calculations and patterns;
commands with assignments and redirections; pipelines, lists, conditions, loops, groups and functions. What is put
in for a part of a word is kept as the text that it was written with, and read when the word is used.
-/

namespace BucketMount

/-- What is wanted of a parameter. -/
inductive ParameterUse where
  | value
  | length
  /-- A word in place of a value that is missing or, if that counts, empty. -/
  | orElse (emptyToo : Bool) (word : Text)
  /-- The same, and the parameter keeps the value. -/
  | orSet (emptyToo : Bool) (word : Text)
  /-- Without a value the script ends, and the word says why. -/
  | orEnd (emptyToo : Bool) (word : Text)
  /-- A word in place of a value that is there. -/
  | ifThere (emptyToo : Bool) (word : Text)
  /-- The value without what a pattern fits at one end. -/
  | without (back longest : Bool) (pattern : Text)
  /-- Nothing that a parameter could be used for. -/
  | unknown
deriving DecidableEq, Repr

inductive WordPart where
  | literal (t : Text) (quoted : Bool)
  | parameter (name : Text) (use : ParameterUse) (quoted : Bool)
  /-- The output of a script. -/
  | output (script : Text) (quoted : Bool)
  /-- The value of an expression. -/
  | calculation (expression : Text) (quoted : Bool)
deriving DecidableEq, Repr

/-- A word before anything has been put in. -/
abbrev ScriptWord := List WordPart

/-- A change to what the descriptors of a command stand for. -/
inductive Redirection where
  | toFile (descriptor : Nat) (append : Bool) (target : ScriptWord)
  | fromFile (descriptor : Nat) (source : ScriptWord)
  | fromText (descriptor : Nat) (text : ScriptWord)
  /-- The descriptor stands for what another one stands for or, if that is a dash, for nothing. -/
  | same (descriptor : Nat) (other : ScriptWord)
deriving DecidableEq, Repr

inductive Script where
  | nothing
  /-- Text that cannot be read because of something in a line. -/
  | unreadable (line : Nat) (reason : Text)
  | command (line : Nat) (assignments : List (Text × ScriptWord)) (words : List ScriptWord)
      (redirections : List Redirection)
  | list (items : List Script)
  | both (first second : Script)
  | either (first second : Script)
  /-- Ends well if the script does not. -/
  | opposite (script : Script)
  /-- Scripts that run side by side, each of them reading what the one before it writes. -/
  | pipeline (stages : List Script)
  | background (script : Script)
  /-- Runs in a shell of its own. -/
  | apart (script : Script)
  | redirected (script : Script) (redirections : List Redirection)
  /-- Runs one of two scripts, depending on how the condition ends. -/
  | choose (condition yes no : Script)
  /-- Runs the body as long as the condition ends well, or ends badly. -/
  | loop (well : Bool) (condition body : Script)
  /-- Runs the body for each of the words, or for each argument if there are none. -/
  | forEach (name : Text) (words : Option (List ScriptWord)) (body : Script)
  /-- Runs the first script one of whose patterns fits the word. -/
  | select (word : ScriptWord) (arms : List (List ScriptWord × Script))
  | define (name : Text) (body : Script)
deriving Repr

namespace ScriptWord

def push (w : ScriptWord) (c : Char) (quoted : Bool) : ScriptWord :=
  match w.getLast? with
  | some (.literal t q) => if q = quoted then w.dropLast ++ [.literal (t ++ [c]) q] else w ++ [.literal [c] quoted]
  | _ => w ++ [.literal [c] quoted]

/-- The characters of a word in which nothing is put in. -/
def text (w : ScriptWord) : Text :=
  w.flatMap fun
    | .literal t _ => t
    | _ => []

def hasQuotes (w : ScriptWord) : Bool :=
  w.any fun
    | .literal _ quoted | .parameter _ _ quoted | .output _ quoted | .calculation _ quoted => quoted

end ScriptWord
end BucketMount
