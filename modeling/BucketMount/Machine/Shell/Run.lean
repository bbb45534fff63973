import BucketMount.Machine.Shell.Builtin

/-!
# How a script runs

The meaning of scripts: what a shell becomes by one. Commands look for a function, for what the shell does itself,
and for a program, in this order; parts of a script that run apart do so in a shell that leaves nothing behind but
its status and what it has done to the machine. `Shell.run` is bounded by a depth; a script that goes deeper ends as
one does that runs out of stack, and a loop that goes on for too long as one that runs out of time.
-/

namespace BucketMount

/-- How a shell starts a program: with a task, the number of the shell, the signals that are ignored, the number for
the process, and the words of the command. -/
abbrev Runner := Program → Task → Pid → List Nat → Pid → List Text → ProcessEnd × Machine

namespace Shell

/-- How a part of a script is run; the first argument says whether its status is asked for by something around it. -/
abbrev Evaluator := Bool → Script → Shell → Shell

def maxTurns : Nat := 10000

/-! ## Shells in shells -/

/-- The shell in which a part of a script runs apart. What is done on signals is left behind, unless it is nothing. -/
def apart (s : Shell) : Shell :=
  let pid := s.machine.nextPid
  { s with
    toTask := s.toTask.onMachine fun m => { m.enter pid with nextPid := pid + 1 }
    pid := pid
    traps := s.traps.filter (·.2 = [])
    statusBefore := none
    loops := 0 }

def runLastAction (evaluate : Evaluator) (s : Shell) : Shell :=
  match s.ending, s.traps.lookup 0 with
  | .exited n, some action =>
    if action = [] then s
    else
      let t := evaluate false (Script.parse action)
        { s.withStatus n with flow := .onward, traps := s.traps.filter (·.1 ≠ 0), statusBefore := some n }
      match t.flow with
      | .ended _ => t
      | _ => t.halt (.exited n)
  | _, _ => s

/-- Runs a script in a shell up to the end of that shell. -/
def runToEnd (evaluate : Evaluator) (tested : Bool) (script : Script) (s : Shell) : ProcessEnd × Machine :=
  let s := runLastAction evaluate (evaluate tested script s)
  (s.ending, s.machine.quit s.pid)

def rejoin (s : Shell) (how : ProcessEnd) (m : Machine) : Shell :=
  let old := s.machine
  { s with
    toTask :=
      { s.toTask with
        machine :=
          { m with environment := old.environment, workingDirectory := old.workingDirectory, mask := old.mask }
        status := how.shellCode } }

def runApart (evaluate : Evaluator) (tested : Bool) (script : Script) (streams : Streams) (s : Shell) : Shell :=
  let (how, m) := runToEnd evaluate tested script { s.apart with streams := streams }
  (s.rejoin how m).report how

def outputOf (evaluate : Evaluator) : OutputOf := fun t s =>
  let (p, task) := s.openPipe []
  let s := runApart evaluate false (Script.parse t) (s.streams.put 1 (.pipe p)) { s with toTask := task }
  let (bytes, task) := s.closePipe p
  (Text.ofUtf8Lossy bytes, { s with toTask := task })

/-- Runs the stages of a pipeline, the first of which reads from a stream. All of them start at the same time. -/
def runStages (evaluate : Evaluator) (tested : Bool) (clock : Nat) : Stream → List Script → Shell → Shell
  | _, [], s => s
  | input, [script], s =>
    let latest := s.machine.clock
    let s := runApart evaluate tested script (s.streams.put 0 input) (s.onMachine fun m => { m with clock := clock })
    s.onMachine fun m => { m with clock := max latest m.clock }
  | input, script :: rest, s =>
    let latest := s.machine.clock
    let (p, task) := s.openPipe []
    let s : Shell := { s with toTask := task.onMachine fun m => { m with clock := clock } }
    let s := runApart evaluate tested script ((s.streams.put 0 input).put 1 (.pipe p)) s
    let s := s.onMachine fun m => { m with clock := max latest m.clock }
    runStages evaluate tested clock (.pipe p) rest s

def runBeside (evaluate : Evaluator) (script : Script) (s : Shell) : Shell :=
  let start := s.machine.clock
  let inner := s.apart
  let inner := { inner with
    streams := s.streams.put 0 .nowhere
    traps := (Signal.int.number, []) :: (Signal.quit.number, []) :: inner.traps }
  let (how, m) := runToEnd evaluate false script inner
  let actor : Actor := ⟨false, false, some (m.clock, how), false⟩
  let s := s.rejoin how { m with clock := start, processes := m.processes ++ [(inner.pid, actor)] }
  { s.withStatus 0 with lastJob := some inner.pid }

/-! ## Signals -/

def attend (evaluate : Evaluator) (s : Shell) : Shell :=
  let (numbers, s) := s.takeSignals
  numbers.foldl
    (fun s number =>
      match s.flow, s.effect number with
      | .ended _, _ | _, none => s
      | _, some (.inl how) => { s with traps := [] }.halt how
      | flow, some (.inr action) =>
        let t := evaluate false (Script.parse action) { s with flow := .onward, statusBefore := some s.status }
        match t.flow with
        | .ended _ => t
        | _ => { t.withStatus s.status with flow := flow, statusBefore := s.statusBefore })
    s

/-! ## Redirections -/

def openFault (writing : Bool) (path : Text) (e : Errno) : Text :=
  let reason :=
    match e with
    | .enoent => if writing then "Directory nonexistent".toList else "No such file".toList
    | .enotdir => if writing then "Directory nonexistent".toList else "No such file".toList
    | e => e.libraryText
  (if writing then "cannot create ".toList else "cannot open ".toList) ++ path ++ ": ".toList ++ reason

def redirect (output : OutputOf) (r : Redirection) : StateM Shell Bool := do
  let opened (descriptor : Nat) (writing : Bool) (path : Text) (r : Except Errno (Stream × Task)) :
      StateM Shell Bool :=
    fun s =>
      match r with
      | .ok (stream, task) => (true, { s with toTask := { task with streams := task.streams.put descriptor stream } })
      | .error e => (false, (s.complain (openFault writing path e)).withStatus 2)
  match r with
  | .toFile descriptor append w => do
    let path ← wordText output w
    let s ← get
    opened descriptor true path (s.openToWrite path append)
  | .fromFile descriptor w => do
    let path ← wordText output w
    let s ← get
    opened descriptor false path (s.openToRead path)
  | .fromText descriptor w => do
    let t ← wordText output w
    modify fun s =>
      let (p, task) := s.openPipe (Text.toUtf8 t)
      { s with toTask := { task with streams := task.streams.put descriptor (.pipe p) } }
    return true
  | .same descriptor w => do
    let t ← wordText output w
    let s ← get
    if t = ['-'] then
      set { s with streams := s.streams.filter (·.1 ≠ descriptor) }
      return true
    else
      match (Text.readDecimal t).map fun n => s.streams.lookup n with
      | some (some stream) => do
        set { s with streams := s.streams.put descriptor stream }
        return true
      | some none => do
        set ((s.complain (t ++ ": Bad file descriptor".toList)).withStatus 2)
        return false
      | none => do
        set (s.abort "Syntax error: Bad fd number".toList)
        return false

/-- Makes descriptors stand for something else, up to the first one where that fails. -/
def redirectAll (output : OutputOf) : List Redirection → StateM Shell Bool
  | [] => return true
  | r :: rest => do
    if ← redirect output r then
      if (← get).goesOn then redirectAll output rest else return false
    else return false

def withStreamsOf (s other : Shell) : Shell := { s with streams := other.streams }

/-! ## Commands -/

def programPath? (s : Shell) (name : Text) : Option Text :=
  let m := s.lookingMachine
  if '/' ∈ name then (m.programAt s.caller name).toOption.map fun _ => name
  else
    (m.searchPath.map fun directory => if directory = [] then name else directory ++ '/' :: name).find? fun path =>
      (m.programAt s.caller path).toOption.isSome

/-- The program that a word names, or what is said of it and the status for that. -/
def lookUp (s : Shell) (name : Text) : Except (Text × Nat) Program :=
  let m := s.lookingMachine
  let found := do
    let program ← m.program? s.caller name
    match m.interpreterFault? s.caller program with
    | some e => throw e
    | none => return program
  match found with
  | .ok program => .ok program
  | .error .enoent | .error .enotdir => .error (name ++ ": not found".toList, 127)
  | .error e => .error (name ++ ": ".toList ++ e.libraryText, 126)

def startProgram (other : Runner) (s : Shell) (program : Program) (pid : Pid) (words : List Text) :
    ProcessEnd × Shell :=
  let deaf := (s.traps.filterMap fun (n, action) => if action = [] then some n else none) ++ s.ignored
  let (how, m) := other program { s.toTask with machine := s.handedDown } s.pid deaf pid words
  (how, s.rejoin how m)

def runProgram (other : Runner) (s : Shell) (words : List Text) : Shell :=
  match s.lookUp (words.headD []) with
  | .error (reason, status) => (s.complain reason).withStatus status
  | .ok program =>
    let pid := s.machine.nextPid
    let (how, s) := (s.onMachine fun m => { m with nextPid := pid + 1 }).startProgram other program pid words
    s.report how

/-- Gives the place of the shell to a program, which then ends as the shell does. -/
def become (other : Runner) (s : Shell) (words : List Text) : Shell :=
  match s.lookUp (words.headD []) with
  | .error (reason, status) => (s.complain ("exec: ".toList ++ reason)).halt (.exited status)
  | .ok program =>
    let (how, s) := s.startProgram other program s.pid words
    { s with traps := [] }.halt how

def runText (evaluate : Evaluator) (tested : Bool) (t : Text) (s : Shell) : Shell :=
  evaluate tested (Script.parse t) (s.withStatus 0)

def runFile (evaluate : Evaluator) (tested : Bool) (arguments : List Text) (s : Shell) : Shell :=
  match arguments with
  | [] => s.abort ".: filename argument required".toList
  | name :: _ =>
    let paths := if '/' ∈ name then [name] else s.lookingMachine.searchPath.map fun d => d ++ '/' :: name
    match paths.findSome? fun path => (s.content path).toOption with
    | none => s.abort (".: cannot open ".toList ++ name ++ ": No such file".toList)
    | some bytes =>
      let s := runText evaluate tested (Text.ofUtf8Lossy bytes) s
      if s.flow = .afterFunction then { s with flow := .onward } else s

def call (evaluate : Evaluator) (tested : Bool) (body : Script) (arguments : List Text) (s : Shell) : Shell :=
  let t := evaluate tested body { s with arguments := arguments, before := [] :: s.before, loops := 0 }
  let restored := (t.before.headD []).foldl (fun t (name, v) => t.replace name v) t
  { restored with
    arguments := s.arguments
    before := s.before
    loops := s.loops
    flow :=
      match t.flow with
      | .ended how => .ended how
      | _ => .onward }

def tellCommand (s : Shell) (verbose : Bool) (name : Text) : Shell :=
  let tell (short long : Text) : Shell :=
    (s.onTask (·.say (if verbose then name ++ " is ".toList ++ long else short))).withStatus 0
  if (s.functions.lookup name).isSome then tell name "a shell function".toList
  else if builtins.contains (String.ofList name) then tell name "a shell builtin".toList
  else
    match s.programPath? name with
    | some path => tell path path
    | none => (if verbose then s.onTask (·.say (name ++ ": not found".toList)) else s).withStatus 127

def runWords (other : Runner) (evaluate : Evaluator) (tested : Bool) : List Text → Shell → Shell
  | [], s => s.withStatus 0
  | name :: arguments, s =>
    match String.ofList name with
    | "eval" => runText evaluate tested ([' '].intercalate arguments) s
    | "." => runFile evaluate tested arguments s
    | "exec" => if arguments = [] then s.withStatus 0 else s.become other arguments
    | "command" =>
      match arguments with
      | ['-', 'v'] :: names => s.tellCommand false (names.headD [])
      | ['-', 'V'] :: names => s.tellCommand true (names.headD [])
      | ['-', 'p'] :: words => runWords other evaluate tested words s
      | words => runWords other evaluate tested words s
    | "type" => arguments.foldl (tellCommand · true ·) (s.withStatus 0)
    | "hash" =>
      arguments.foldl
        (fun s name =>
          if (s.programPath? name).isSome then s
          else (s.complain ("hash: ".toList ++ name ++ ": not found".toList)).withStatus 1)
        (s.withStatus 0)
    | builtin => (s.builtin builtin arguments).getD (s.runProgram other (name :: arguments))
termination_by words => words.length
decreasing_by all_goals (simp only [List.length_cons]; omega)

/-- Puts values into variables, one after the other; `mark` is what becomes of them besides. -/
def assignAll (output : OutputOf) (mark : Variable → Variable) (assignments : List (Text × ScriptWord)) :
    StateM Shell (List (Text × Text)) :=
  assignments.mapM fun (name, w) => do
    let value ← wordText output w
    modify fun s => if s.goesOn then (s.assign name value).mark name mark else s
    return (name, value)

/-- Shows a command on some streams before it is run, where that is wanted. -/
def trace (s : Shell) (streams : Streams) (values : List (Text × Text)) (words : List Text) : Shell :=
  if s.has 'x' then
    let shown := values.map (fun (name, value) => name ++ '=' :: value) ++ words
    let told := { s.toTask with streams := streams }.complain ("+ ".toList ++ [' '].intercalate shown)
    { s with toTask := { told with streams := s.streams } }
  else s

def runCommand (other : Runner) (evaluate : Evaluator) (tested : Bool) (assignments : List (Text × ScriptWord))
    (words : List ScriptWord) (redirections : List Redirection) (s : Shell) : Shell :=
  let output := outputOf evaluate
  let (fields, t) := (allFields output words).run { s with outputStatus := none }
  if ¬t.goesOn then t
  else
    let isEssential := essential.contains (String.ofList (fields.headD []))
    let (isOpen, t) := (redirectAll output redirections).run t
    if ¬isOpen then
      if isEssential ∧ t.goesOn then t.halt (.exited 2) else t.withStreamsOf s
    else
      let keeps := fields = [] || isEssential
      let mark (x : Variable) : Variable := if keeps then x else { x with exported := true }
      let (values, u) := (assignAll output mark assignments).run t
      let u := u.trace s.streams values fields
      if ¬u.goesOn then u
      else if fields = [] then (u.withStatus (u.outputStatus.getD 0)).withStreamsOf s
      else if isEssential then
        let u := runWords other evaluate tested fields u
        if fields = [['e', 'x', 'e', 'c']] then u else u.withStreamsOf s
      else
        let v :=
          match u.functions.lookup (fields.headD []) with
          | some body => call evaluate tested body (fields.drop 1) u
          | none => runWords other evaluate tested fields u
        (values.foldl (fun v (name, _) => v.replace name (t.binding? name)) v).withStreamsOf s

/-! ## Loops -/

/-- The shell after a turn of a loop, and whether another one follows. -/
def afterTurn (s : Shell) : Bool × Shell :=
  match s.flow with
  | .onward => (true, s)
  | .afterLoops levels again =>
    if levels ≤ 1 then (again, { s with flow := .onward })
    else (false, { s with flow := .afterLoops (levels - 1) again })
  | _ => (false, s)

def inLoop (s : Shell) : Shell := { s with loops := s.loops + 1 }

def outOfLoop (s : Shell) : Shell := { s with loops := s.loops - 1 }

/-- Takes turns as long as a condition ends as it should. The first argument bounds their number, the last one but
one is the status for the end. -/
def repeatWhile (condition body : Shell → Shell) (well : Bool) : Nat → Nat → Shell → Shell
  | 0, _, s => s.halt (.signaled Signal.xcpu.number)
  | fuel + 1, status, s =>
    let (more, t) := (condition s).afterTurn
    if ¬more then t
    else if decide (t.status = 0) ≠ well then t.withStatus status
    else
      let (more, u) := (body t).afterTurn
      if more then repeatWhile condition body well fuel u.status u else u

def repeatFor (name : Text) (body : Shell → Shell) : List Text → Shell → Shell
  | [], s => s
  | v :: rest, s =>
    let t := s.assign name v
    if ¬t.goesOn then t
    else
      let (more, u) := (body t).afterTurn
      if more then repeatFor name body rest u else u

def runAll (evaluate : Shell → Script → Shell) : List Script → Shell → Shell
  | [], s => s
  | script :: rest, s =>
    let t := evaluate s script
    if t.goesOn then runAll evaluate rest t else t

/-- The first script one of whose patterns fits a text. -/
def selected (output : OutputOf) (t : Text) : List (List ScriptWord × Script) → StateM Shell Script
  | [] => return .nothing
  | (patterns, body) :: rest => do
    if ← patterns.anyM fun p => do return (← wordPattern output p).accepts t then return body
    else selected output t rest

/-! ## Scripts -/

/-- Whether a bad end of a script is one that the shell may not tolerate. -/
def isChecked : Script → Bool
  | .command _ _ _ _ | .pipeline _ | .apart _ => true
  | _ => false

/-- Runs a script. The number bounds its depth; the truth value says whether its status is asked for by something
around. -/
def run (other : Runner) : Nat → Evaluator
  | 0, _, _, s => s.halt (.signaled Signal.segv.number)
  | depth + 1, tested, script, s =>
    let evaluate : Evaluator := run other depth
    let output := outputOf evaluate
    if ¬s.goesOn ∨ s.has 'n' then s
    else
      let t : Shell :=
        match script with
        | .nothing => s
        | .unreadable line reason => { s with line := line }.abort ("Syntax error: ".toList ++ reason)
        | .command line assignments words redirections =>
          runCommand other evaluate tested assignments words redirections { s with line := line }
        | .list items => runAll (fun s script => evaluate tested script s) items s
        | .both a b =>
          let s := evaluate true a s
          if s.status = 0 then evaluate tested b s else s
        | .either a b =>
          let s := evaluate true a s
          if s.status ≠ 0 then evaluate tested b s else s
        | .opposite a =>
          let s := evaluate true a s
          if s.goesOn then s.withStatus (Task.ofBool (s.status ≠ 0)) else s
        | .pipeline stages => runStages evaluate tested s.machine.clock (s.streams.get 0) stages s
        | .background a => runBeside evaluate a s
        | .apart a => runApart evaluate tested a s.streams s
        | .redirected a redirections =>
          let (isOpen, t) := (redirectAll output redirections).run s
          (if isOpen then evaluate tested a t else t).withStreamsOf s
        | .choose condition yes no =>
          let s := evaluate true condition s
          if ¬s.goesOn then s
          else
            match if s.status = 0 then yes else no with
            | .nothing => s.withStatus 0
            | branch => evaluate tested branch s
        | .loop well condition body =>
          (repeatWhile (evaluate true condition) (evaluate tested body) well maxTurns 0 s.inLoop).outOfLoop
        | .forEach name words body =>
          let (values, s) : List Text × Shell :=
            match words with
            | none => (s.arguments, s)
            | some words => (allFields output words).run s
          if s.goesOn then (repeatFor name (evaluate tested body) values (s.withStatus 0).inLoop).outOfLoop else s
        | .select w arms =>
          let (t, s) := (wordText output w).run s
          let (found, s) := (selected output t arms).run s
          match found with
          | .nothing => if s.goesOn then s.withStatus 0 else s
          | body => evaluate tested body s
        | .define name body => { s.withStatus 0 with functions := (name, body) :: s.functions }
      let t := t.attend evaluate
      if t.goesOn ∧ t.has 'e' ∧ ¬tested ∧ isChecked script ∧ t.status ≠ 0 then t.halt (.exited t.status) else t

def maxDepth : Nat := 500

end Shell
end BucketMount
