import BucketMount.Kernel
import BucketMount.Machine.Shell.Run

/-!
# Running programs on a machine

A program does at once whatever it does, and its `Finish` says how it ends and how long it takes for that. What
keeps a program from being started is told beforehand by `Machine.launchFault?`.
-/

namespace BucketMount

/-- How a program that has been started ends, and how long that takes. -/
structure Finish where
  how : ProcessEnd
  time : Duration
deriving DecidableEq, Repr

namespace Machine

/-- A shell as a program: what it runs is the argument after the letter for that, or the content of a file, or its
input. -/
def runShell (other : Runner) (task : Task) (parent : Pid) (ignored : List Nat) (pid : Pid) (arguments : List Text) :
    ProcessEnd × Machine :=
  let give (options : List Char) (script name : Text) (arguments : List Text) (task : Task) : ProcessEnd × Machine :=
    let s := Shell.start { task with name := name } pid parent ignored (options.filter (· ≠ 's')) arguments
    Shell.runToEnd (Shell.run other Shell.maxDepth) false (Script.parse script) s
  let refuse (reason : Text) : ProcessEnd × Machine :=
    (.exited 2, (task.complain (task.name ++ ": 0: ".toList ++ reason)).machine)
  match Shell.readOptions (some 'c') (arguments.length + 1) false [] arguments with
  | .error t => refuse (Shell.noOption t)
  | .ok given =>
    let options := given.options
    match given.hasScript, given.arguments with
    | true, [] => refuse "-c requires an argument".toList
    | true, script :: rest => give options script (rest.headD task.name) (rest.drop 1) task
    | false, rest =>
      if rest = [] ∨ 's' ∈ options then
        let (bytes, task) := task.drain
        give options (Text.ofUtf8Lossy bytes) task.name rest task
      else
        let path := rest.headD []
        match task.content path with
        | .ok bytes => give options (Text.ofUtf8Lossy bytes) path (rest.drop 1) task
        | .error e => refuse (Shell.openFault false path e)

/-- Changes to an environment at the front of arguments, and the arguments after them. -/
def environmentChanges : Environment → List Text → Environment × List Text
  | _, ['-', 'i'] :: rest => environmentChanges [] rest
  | env, ['-', 'u'] :: name :: rest => environmentChanges (env.erase (Text.toUtf8 name)) rest
  | env, a :: rest =>
    match Text.splitOnce '=' a with
    | some (name, value) => environmentChanges (env.set (Text.toUtf8 name) (Text.toUtf8 value)) rest
    | none => (env, a :: rest)
  | env, [] => (env, [])

/-- Runs a program. Programs that start programs may do so `depth` levels deep. -/
def runProgram : Nat → Runner
  | 0, _, task, _, _, _, _ => (.exited 126, task.machine)
  | depth + 1, program, task, parent, ignored, pid, words =>
    let other := runProgram depth
    let m := task.machine
    let arguments := words.drop 1
    let shell (task : Task) (arguments : List Text) : ProcessEnd × Machine :=
      runShell other task parent ignored pid arguments
    let startOther (name : String) (task : Task) (words : List Text) : ProcessEnd × Machine :=
      match task.machine.program? task.caller (words.headD []) with
      | .ok program => other program task parent ignored pid words
      | .error e =>
        let task := { task with name := name.toList }
        let told := task.complain (Task.complaint (name ++ ":").toList (words.headD []) e)
        (.exited (if e = .enoent ∨ e = .enotdir then 127 else 126), told.machine)
    match program with
    | .plain path => shell { task with name := words.headD [] } (path :: arguments)
    | .script path interpreter =>
      match m.programAt task.caller (interpreter.headD []) with
      | .ok program => other program task parent ignored pid (interpreter ++ path :: arguments)
      | .error .enoent | .error .enotdir => (.exited 127, m)
      | .error _ => (.exited 126, m)
    | .tool "env" =>
      let (environment, words) := environmentChanges m.environment arguments
      let task := { task with machine := { m with environment := environment } }
      if words = [] then
        let lines := environment.entries.flatMap (· ++ Text.toUtf8 ['\n'])
        (.exited 0, (task.emitBytes (task.streams.get 1) lines).machine)
      else startOther "env" task words
    | .tool "nohup" => startOther "nohup" task arguments
    | .tool "setsid" => startOther "setsid" task arguments
    | .tool "timeout" =>
      let (how, after) := startOther "timeout" task (arguments.drop 1)
      match Task.duration? (arguments.headD []) with
      | none => (.exited 125, m)
      | some limit =>
        if limit = 0 ∨ after.clock ≤ m.clock + limit then (.exited how.shellCode, after)
        else (.exited 124, { after with clock := m.clock + limit })
    | .tool "kill" =>
      let s := (Shell.start task pid parent ignored [] []).kill arguments
      (.exited (min s.status 1), s.machine.quit pid)
    | .tool name =>
      if name = "sh" ∨ name = "dash" ∨ name = "bash" then shell { task with name := words.headD [] } arguments
      else
        let t := { task with name := name.toList, status := 0 }
        let done := (t.tool name arguments).getD t
        (.exited done.status, done.machine)

def maxDepth : Nat := 32

/-- What keeps a program from being started; a file that does not say what runs it is none. -/
def startFault? (m : Machine) (caller : Credentials) (name : Text) : Option Errno :=
  match m.program? caller name with
  | .error e => some e
  | .ok (.plain _) => some .enoexec
  | .ok program => m.interpreterFault? caller program

def launchFault? (m : Machine) (caller : Credentials) (words : List Bytes) : Option LaunchFault :=
  if words.any (Environment.nul ∈ ·) then some .nulInArgument
  else (m.startFault? caller (Text.ofUtf8Lossy (words.headD []))).map .system

/-- Runs a program whose input is a stream. Only what it has done to the machine is left of it. -/
def start (m : Machine) (caller : Credentials) (pid : Pid) (input : Stream) (words : List Bytes) : Finish × Machine :=
  let words := words.map Text.ofUtf8Lossy
  match m.program? caller (words.headD []) with
  | .error _ => (⟨.exited 127, 0⟩, m)
  | .ok program =>
    let task : Task := ⟨m, caller, Streams.usual.put 0 input, words.headD [], 0⟩
    let (how, after) := runProgram maxDepth program task m.self [] pid words
    (⟨how, after.clock - m.clock⟩,
      { after with
        clock := m.clock, environment := m.environment, workingDirectory := m.workingDirectory, mask := m.mask })

def launch (m : Machine) (caller : Credentials) (pid : Pid) (input : Stream) (words : List Bytes) :
    Except LaunchFault (Finish × Machine) :=
  match m.launchFault? caller words with
  | some fault => .error fault
  | none => .ok (m.start caller pid input words)

end Machine
end BucketMount
