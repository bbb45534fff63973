import BucketMount.Machine.Tool

/-!
# Programs

What a word names for a caller: one of the usual tools, or a file that may be run, looked for in the directories
that the environment names. A script tells on its first line what runs it.
-/

namespace BucketMount

inductive Program where
  | tool (name : String)
  /-- The file at a path, with the words that say what runs it. -/
  | script (path : Text) (interpreter : List Text)
  /-- An executable file that says nothing about itself. -/
  | plain (path : Text)
deriving DecidableEq, Repr

namespace Machine

def toolDirectories : List Text := ["/usr/bin/".toList, "/bin/".toList]

def startingTools : List String := ["env", "nohup", "setsid", "timeout", "kill", "sh", "dash", "bash"]

def toolAt? (path : Text) : Option String :=
  (toolDirectories.find? (·.isPrefixOf path)).bind fun d =>
    (Task.toolNames ++ startingTools).find? (·.toList = path.drop d.length)

def scriptMark : Bytes := Text.toUtf8 "#!".toList

/-- Whether a character separates the words on the first line of a script. -/
def isLineBlank (c : Char) : Bool := c = ' ' || c = '\t'

/-- What runs a script, by the first line of its content: a program, and one argument where more is there. -/
def interpreter? (content : Bytes) : Option (List Text) :=
  if ¬scriptMark.isPrefixOf content then none
  else
    let line := ((Text.ofUtf8Lossy (content.drop scriptMark.length)).takeWhile (· ≠ '\n')).dropWhile isLineBlank
    let program := line.takeWhile (!isLineBlank ·)
    let rest := ((line.drop program.length).dropWhile isLineBlank).reverse.dropWhile isLineBlank
    if program = [] then none else if rest = [] then some [program] else some [program, rest.reverse]

def programAt (m : Machine) (caller : Credentials) (path : Text) : Except Errno Program :=
  match toolAt? path with
  | some tool => .ok (.tool tool)
  | none =>
    match m.files.find caller true m.here (Text.toUtf8 path) with
    | .error e => .error e
    | .ok (_, n) =>
      match n.kind with
      | .regular content =>
        if n.mode &&& 0o111 = 0 ∨ ¬n.permits caller .search then .error .eacces
        else
          match interpreter? content with
          | some words => .ok (.script path words)
          | none => .ok (.plain path)
      | _ => .error .eacces

/-- What keeps a program from being run: a script needs what runs it. -/
def interpreterFault? (m : Machine) (caller : Credentials) (p : Program) : Option Errno :=
  match p with
  | .script _ interpreter =>
    match m.programAt caller (interpreter.headD []) with
    | .error e => some e
    | .ok _ => none
  | _ => none

/-- The first program of a name in some directories. One that may not be run is passed over, but remembered. -/
def search (m : Machine) (caller : Credentials) (name : Text) : List Text → Except Errno Program
  | [] => .error .enoent
  | directory :: rest =>
    match m.programAt caller (if directory = [] then name else directory ++ '/' :: name) with
    | .error .eacces =>
      match search m caller name rest with
      | .error .enoent => .error .eacces
      | answer => answer
    | .error .enoent | .error .enotdir | .error .enametoolong => search m caller name rest
    | answer => answer

/-- The directories in which a command is looked for; where nothing is said, the usual ones. -/
def searchPath (m : Machine) : List Text :=
  let said := (m.environment.get? (Text.toUtf8 "PATH".toList)).map Text.ofUtf8Lossy
  (said.getD "/bin:/usr/bin".toList).splitOn ':'

def program? (m : Machine) (caller : Credentials) (name : Text) : Except Errno Program :=
  if name = [] then .error .enoent
  else if '/' ∈ name then m.programAt caller name
  else m.search caller name m.searchPath

end Machine
end BucketMount
