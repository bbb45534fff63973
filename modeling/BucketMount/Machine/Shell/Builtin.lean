import BucketMount.Machine.Shell.Expansion

/-!
# What a shell does itself

The commands that need no other program: those that change the shell, those that lead to another place of the
script, and those that a shell merely does faster. A fault in an essential one ends the script.
-/

namespace BucketMount.Shell

def number? (t : Text) : Option Nat := Text.readDecimal t

def noNumber (command : String) (t : Text) : Text := command.toList ++ ": Illegal number: ".toList ++ t

/-! ## Places of the script -/

/-- Leaves loops, or goes on with the next turn. -/
def leaveLoops (s : Shell) (command : String) (again : Bool) (arguments : List Text) : Shell :=
  match arguments with
  | [] => if s.loops = 0 then s.withStatus 0 else { s.withStatus 0 with flow := .afterLoops 1 again }
  | t :: _ =>
    match (number? t).filter (0 < ·) with
    | some n =>
      if s.loops = 0 then s.withStatus 0
      else { s.withStatus 0 with flow := .afterLoops (min n s.loops) again }
    | none => s.abort (noNumber command t)

/-- The status that a command is to end with. -/
def leaveWith (s : Shell) (command : String) (arguments : List Text) (leave : Nat → Shell) : Shell :=
  match arguments with
  | [] => leave (s.statusBefore.getD s.status)
  | t :: _ =>
    match number? t with
    | some n => leave n
    | none => s.abort (noNumber command t)

/-! ## Options and arguments -/

def optionNamed? (name : Text) : Option Char :=
  match String.ofList name with
  | "errexit" => some 'e'
  | "noglob" => some 'f'
  | "noexec" => some 'n'
  | "nounset" => some 'u'
  | "verbose" => some 'v'
  | "xtrace" => some 'x'
  | "ignoreeof" => some 'I'
  | "monitor" => some 'm'
  | "noclobber" => some 'C'
  | "allexport" => some 'a'
  | "notify" => some 'b'
  | _ => none

/-- The options after some have been switched on or off; the answer is the first letter or name that is none. -/
def switched (on : Bool) (letters : List Char) (options : List Char) : Except Text (List Char) :=
  letters.foldlM
    (fun options c =>
      if c ∉ optionLetters then .error [c]
      else .ok (if on then if c ∈ options then options else options ++ [c] else options.filter (· ≠ c)))
    options

structure Invocation where
  /-- Whether a script is the first of the other arguments. -/
  hasScript : Bool
  /-- Whether a pair of dashes ends the options. -/
  isClosed : Bool
  options : List Char
  arguments : List Text

/-- Reads the options in front of other arguments; `script` is the letter that announces a script, if one may. What
cannot be read is the answer otherwise. The first argument bounds the number. -/
def readOptions (script : Option Char) : Nat → Bool → List Char → List Text → Except Text Invocation
  | 0, announced, options, rest => .ok ⟨announced, false, options, rest⟩
  | fuel + 1, announced, options, arguments =>
    match arguments with
    | ['-', '-'] :: rest => .ok ⟨announced, true, options, rest⟩
    | [sign, 'o'] :: name :: rest =>
      if sign = '-' ∨ sign = '+' then
        match optionNamed? name with
        | some c => do
          let options ← switched (sign = '-') [c] options
          readOptions script fuel announced options rest
        | none => .error ("-o ".toList ++ name)
      else .ok ⟨announced, false, options, arguments⟩
    | (sign :: c :: letters) :: rest =>
      if sign = '-' ∨ sign = '+' then do
        let given := c :: letters
        let options ← switched (sign = '-') (given.filter fun c => some c ≠ script) options
        readOptions script fuel (announced || script.any (· ∈ given)) options rest
      else .ok ⟨announced, false, options, arguments⟩
    | rest => .ok ⟨announced, false, options, rest⟩

def noOption (t : Text) : Text := "Illegal option ".toList ++ (if t.length = 1 then '-' :: t else t)

/-- Switches options and puts other arguments in the place of those that there are. -/
def setOptions (s : Shell) (arguments : List Text) : Shell :=
  match readOptions none (arguments.length + 1) false s.options arguments with
  | .error t => s.abort ("set: ".toList ++ noOption t)
  | .ok given =>
    let s := { s.withStatus 0 with options := given.options }
    if given.isClosed ∨ given.arguments ≠ [] then { s with arguments := given.arguments } else s

def shift (s : Shell) (arguments : List Text) : Shell :=
  match arguments.head?.map number? with
  | some none => s.abort (noNumber "shift" (arguments.headD []))
  | count =>
    let n := (count.bind id).getD 1
    if s.arguments.length < n then s.abort "shift: can't shift that many".toList
    else { s.withStatus 0 with arguments := s.arguments.drop n }

/-! ## Variables -/

def nameAndValue (t : Text) : Text × Option Text :=
  match Text.splitOnce '=' t with
  | some (name, value) => (name, some value)
  | none => (t, none)

/-- Gives variables a mark, and a value where there is one. -/
def markAll (s : Shell) (command : String) (arguments : List Text) (f : Variable → Variable) : Shell :=
  arguments.foldl
    (fun s t =>
      if ¬s.goesOn then s
      else
        let (name, value) := nameAndValue t
        if ¬ScriptWord.isName name then
          s.abort (command.toList ++ ": ".toList ++ name ++ ": bad variable name".toList)
        else (value.elim s (s.assign name)).mark name f)
    (s.withStatus 0)

/-- Makes variables private to the function that is running. -/
def makeLocal (s : Shell) (arguments : List Text) : Shell :=
  arguments.foldl
    (fun s t =>
      let (name, value) := nameAndValue t
      match s.before with
      | top :: rest =>
        let s := { s with before := ((name, s.binding? name) :: top) :: rest }
        value.elim s (s.assign name)
      | [] => s.abort "local: not in a function".toList)
    (s.withStatus 0)

def unset (s : Shell) (arguments : List Text) : Shell :=
  match arguments with
  | ['-', 'f'] :: names => { s.withStatus 0 with functions := s.functions.filter fun (name, _) => !names.contains name }
  | arguments =>
    let names := arguments.filter (· ≠ ['-', 'v'])
    match names.find? fun name => (s.binding? name).any Variable.fixed with
    | some name => s.abort ("unset: ".toList ++ name ++ ": is read only".toList)
    | none => names.foldl (fun s name => s.replace name none) (s.withStatus 0)

/-! ## Signals -/

def trap (s : Shell) (arguments : List Text) : Shell :=
  let arguments := if arguments.head? = some ['-', '-'] then arguments.drop 1 else arguments
  let (action, names) : Option Text × List Text :=
    match arguments with
    | [] => (none, [])
    | [name] => (none, [name])
    | action :: names => (if action = ['-'] then none else some action, names)
  names.foldl
    (fun s name =>
      if s.status ≠ 0 then s
      else
        match signalNumber? name with
        | none => (s.onTask (·.complain ("trap: ".toList ++ name ++ ": bad trap".toList))).withStatus 1
        | some n =>
          if n ∈ s.ignored then s
          else
            let others := s.traps.filter (·.1 ≠ n)
            { s with traps := action.elim others fun a => (n, a) :: others })
    (s.withStatus 0)

def usage : Text :=
  "kill: Usage: kill [-s sigspec | -signum | -sigspec] [pid | job]... or\nkill -l [exitstatus]".toList

def kill (s : Shell) (arguments : List Text) : Shell :=
  let send (number : Nat) (pids : List Text) : Shell :=
    if pids = [] then s.refuse false usage
    else
      pids.foldl
        (fun s t =>
          match number? t with
          | none => s.refuse false (noNumber "kill" t)
          | some pid =>
            match s.machine.signal number pid with
            | (.ok (), m) => s.onMachine fun _ => m
            | (.error _, m) => ((s.onMachine fun _ => m).complain "kill: No such process\n".toList).withStatus 1)
        (s.withStatus 0)
  match arguments with
  | ['-', 's'] :: name :: pids =>
    match signalNumber? name with
    | some n => send n pids
    | none => s.refuse false ("kill: invalid signal number or name: ".toList ++ name)
  | ['-', 'l'] :: _ => s.withStatus 0
  | ['-', '-'] :: pids => send Signal.term.number pids
  | ('-' :: name) :: pids =>
    match signalNumber? name with
    | some n => send n pids
    | none => s.refuse false ("kill: Illegal option -".toList ++ name.take 1)
  | pids => send Signal.term.number pids

/-- When a process that the shell has started ends, and how, if it is known. -/
def endOf? (s : Shell) (pid : Pid) : Option (Nat × ProcessEnd) := (s.machine.processes.lookup pid).bind Actor.ending

/-- Lets time pass up to some point, or up to a signal that has an effect; the status tells of that one, and is else
the given one. -/
def passUntil (s : Shell) (limit status : Nat) : Shell :=
  match s.firstSignal? limit with
  | some (time, number) => (s.onMachine fun m => { m with clock := max m.clock time }).withStatus (128 + number)
  | none => (s.onMachine fun m => { m with clock := max m.clock limit }).withStatus status

/-- Waits for processes that the shell has started: for those that are named, or for all. -/
def wait (s : Shell) (arguments : List Text) : Shell :=
  match arguments with
  | [] =>
    let ends := s.machine.processes.filterMap fun (_, a) => if a.isChild then none else a.ending.map Prod.fst
    s.passUntil (ends.foldl max s.machine.clock) 0
  | pids =>
    pids.foldl
      (fun s t =>
        match (number? t).bind s.endOf? with
        | some (time, how) =>
          let t := s.passUntil time how.shellCode
          if t.machine.clock < time then t else t.report how
        | none => s.withStatus 127)
      s

/-! ## Input -/

/-- A line of the input up to its end, whether it has one, and the number of bytes. After a backslash, unless it
counts, a character stands for itself and the end of a line for nothing. -/
def readLine (raw : Bool) : Text → List Mark × Bool × Nat
  | [] => ([], false, 0)
  | '\n' :: _ => ([], true, 1)
  | '\\' :: c :: t =>
    if raw then
      let (l, ended, n) := readLine raw (c :: t)
      (.loose '\\' :: l, ended, n + 1)
    else
      let (l, ended, n) := readLine raw t
      (if c = '\n' then l else .firm c :: l, ended, n + 1 + c.utf8Size)
  | c :: t =>
    let (l, ended, n) := readLine raw t
    (.loose c :: l, ended, n + c.utf8Size)

/-- The marks of a line for some variables, the last of which gets all that is left. -/
def distribute (separators : Text) : Nat → List Mark → List Text
  | 0, _ => []
  | 1, l =>
    let isSpace (m : Mark) : Bool := match m with
      | .loose c => c ∈ separators && Mark.isWhite c
      | _ => false
    [Mark.text ((l.dropWhile isSpace).reverse.dropWhile isSpace).reverse]
  | n + 2, l =>
    let isSpace (m : Mark) : Bool := match m with
      | .loose c => c ∈ separators && Mark.isWhite c
      | _ => false
    let isSeparator (m : Mark) : Bool := match m with
      | .loose c => c ∈ separators
      | _ => false
    let l := l.dropWhile isSpace
    let field := l.takeWhile fun m => !isSeparator m
    let rest := (l.drop field.length).dropWhile isSpace
    let rest := match rest with
      | m :: more => if isSeparator m ∧ ¬isSpace m then more else rest
      | [] => []
    Mark.text field :: distribute separators (n + 1) rest

def read (s : Shell) (arguments : List Text) : Shell :=
  let raw := arguments.head? = some ['-', 'r']
  let names := if raw then arguments.drop 1 else arguments
  if names = [] then s.refuse false "read: arg count".toList
  else
    let (l, ended, n) := readLine raw (Text.ofUtf8Lossy s.input)
    let s := s.onTask (·.consume n)
    let values := distribute s.separators names.length l
    ((names.zip values).foldl (fun s (name, value) => s.assign name value) s).withStatus (Task.ofBool ended)

def nextOption (s : Shell) (arguments : List Text) : Shell :=
  match arguments with
  | letters :: name :: more =>
    let words := if more = [] then s.arguments else more
    let place := ((s.get? "OPTIND".toList).bind number?).getD 1
    let finish (s : Shell) (place read : Nat) (letter : Char) (value : Option Text) (status : Nat) : Shell :=
      let s := (s.assign "OPTIND".toList (Text.decimal place)).assign name [letter]
      let s := match value with
        | some v => s.assign "OPTARG".toList v
        | none => s.replace "OPTARG".toList none
      { s with lettersRead := read }.withStatus status
    match words[place - 1]? with
    | some ('-' :: c :: given) =>
      if c = '-' ∧ given = [] ∧ s.lettersRead = 0 then finish s (place + 1) 0 '?' none 1
      else
        match (c :: given).drop s.lettersRead with
        | [] => finish s (place + 1) 0 '?' none 1
        | letter :: rest =>
          let (place', read') := if rest = [] then (place + 1, 0) else (place, s.lettersRead + 1)
          match (letters.dropWhile (· ≠ letter)).take 2 with
          | [_, ':'] =>
            if rest ≠ [] then finish s (place + 1) 0 letter (some rest) 0
            else
              match words[place]? with
              | some v => finish s (place + 2) 0 letter (some v) 0
              | none =>
                finish (s.complain ("No arg for -".toList ++ [letter] ++ " option".toList)) (place + 1) 0 '?' none 0
          | [] => finish (s.complain ("Illegal option -".toList ++ [letter])) place' read' '?' none 0
          | _ => finish s place' read' letter none 0
    | _ => finish s place 0 '?' none 1
  | _ => s.refuse false "getopts: Usage: getopts optstring var [arg...]".toList

/-! ## Surroundings -/

def changeDirectory (s : Shell) (arguments : List Text) : Shell :=
  let target := match (arguments.filter fun a => a ≠ ['-', '-'] ∧ a ≠ ['-', 'P'] ∧ a ≠ ['-', 'L']).head? with
    | none => (s.get? "HOME".toList).getD []
    | some ['-'] => (s.get? "OLDPWD".toList).getD []
    | some t => t
  let old := Text.ofUtf8Lossy s.machine.workingPath
  match s.find true target with
  | .ok (id, n) =>
    if n.isDirectory ∧ n.permits s.caller .search then
      let path := s.machine.files.realPath id
      let s := (s.onMachine fun m => { m with workingDirectory := path }).assign "OLDPWD".toList old
      (s.assign "PWD".toList (Text.ofUtf8Lossy path)).withStatus 0
    else s.refuse false ("cd: can't cd to ".toList ++ target)
  | .error _ => s.refuse false ("cd: can't cd to ".toList ++ target)

def umask (s : Shell) (arguments : List Text) : Shell :=
  match arguments with
  | [] =>
    let digits := Text.octal s.machine.mask
    (s.onTask (·.say (List.replicate (4 - digits.length) '0' ++ digits))).withStatus 0
  | t :: _ =>
    match Text.readOctal t with
    | some mask => (s.onMachine fun m => { m with mask := mask % 0o1000 }).withStatus 0
    | none => s.refuse false ("umask: Illegal mode: ".toList ++ t)

/-- Prints arguments with their marks, and the end of the line unless it is not wanted. -/
def echo (s : Shell) (arguments : List Text) : Shell :=
  let (ending, arguments) := match arguments with
    | ['-', 'n'] :: arguments => ([], arguments)
    | arguments => (['\n'], arguments)
  let (text, stopped) := Format.unmarked ([' '].intercalate arguments)
  (s.onTask (·.emit 1 (text ++ if stopped then [] else ending))).withStatus 0

/-- A command that prints, which fails if there is nothing to print to. -/
def printing (s : Shell) (name : String) (done : Shell) : Shell :=
  if s.toTask.canPrint then done
  else (s.complain (name.toList ++ ": ".toList ++ name.toList ++ ": I/O error".toList)).withStatus 1

def asTool (s : Shell) (name : String) (arguments : List Text) : Option Shell :=
  let place := s.name ++ ": ".toList ++ Text.decimal s.line ++ ": ".toList
  let task : Task := { s.toTask with name := place ++ name.toList }
  (task.tellingTool name arguments).map fun t => { s with toTask := { t with name := s.name } }

/-- The commands a fault in which ends the script. -/
def essential : List String :=
  [":", ".", "break", "continue", "eval", "exec", "exit", "export", "readonly", "return", "set", "shift",
    "times", "trap", "unset"]

def builtins : List String :=
  essential ++ ["true", "false", "echo", "printf", "test", "[", "pwd", "cd", "chdir", "read", "kill", "wait", "umask",
    "getopts", "local", "command", "type", "hash", "jobs", "ulimit", "alias", "unalias", "bg", "fg"]

def builtin (s : Shell) (name : String) (arguments : List Text) : Option Shell :=
  match name with
  | ":" | "times" | "jobs" | "ulimit" | "alias" | "unalias" | "bg" | "fg" => some (s.withStatus 0)
  | "echo" => some (s.printing "echo" (s.echo arguments))
  | "printf" =>
    if arguments = [] then some (s.refuse false "printf: usage: printf format [arg ...]".toList)
    else (s.asTool name arguments).map (s.printing "printf")
  | "exit" => some (s.leaveWith "exit" arguments fun n => s.halt (.exited (n % 256)))
  | "return" => some (s.leaveWith "return" arguments fun n => { s.withStatus (n % 256) with flow := .afterFunction })
  | "break" => some (s.leaveLoops "break" false arguments)
  | "continue" => some (s.leaveLoops "continue" true arguments)
  | "set" => some (s.setOptions arguments)
  | "shift" => some (s.shift arguments)
  | "export" => some (s.markAll "export" (arguments.filter (· ≠ ['-', 'p'])) fun v => { v with exported := true })
  | "readonly" => some (s.markAll "readonly" (arguments.filter (· ≠ ['-', 'p'])) fun v => { v with fixed := true })
  | "local" => some (s.makeLocal arguments)
  | "unset" => some (s.unset arguments)
  | "trap" => some (s.trap arguments)
  | "kill" => some (s.kill arguments)
  | "wait" => some (s.wait arguments)
  | "read" => some (s.read arguments)
  | "getopts" => some (s.nextOption arguments)
  | "cd" | "chdir" => some (s.changeDirectory arguments)
  | "umask" => some (s.umask arguments)
  | "test" | "[" | "true" | "false" | "pwd" =>
    s.asTool name arguments
  | _ => none

end BucketMount.Shell
