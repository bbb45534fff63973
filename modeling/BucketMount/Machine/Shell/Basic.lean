import BucketMount.Machine.Program
import BucketMount.Machine.Script.Grammar

/-!
# Shells

A shell on its way through a script: its variables and functions, what it does on signals, and whether it goes on,
leaves a loop or function, or has ended. Signals that are sent to it wait on the machine until it turns to them.
-/

namespace BucketMount

namespace Machine

/-- Sends the signal of a number to a process: to the program, to a shell at work, or to another one. The number
zero only asks whether that would be possible. -/
def signal (m : Machine) (number : Nat) (pid : Pid) : Except Errno Unit × Machine :=
  if pid = m.self then
    let signals := ((Signal.ofNumber? number).bind TerminationSignal.ofSignal?).toList
    (.ok (), { m with arrived := m.arrived ++ signals })
  else if (m.shells.lookup pid).isSome then
    let sent : List (Nat × Nat) := if number = 0 then [] else [(m.clock, number)]
    (.ok (), { m with shells := m.shells.map fun (p, l) => if p = pid then (p, l ++ sent) else (p, l) })
  else
    let (answer, t) := m.processes.kill m.clock m.latency pid (if number = 0 then none else some number)
    (answer, { m with processes := t })

def enter (m : Machine) (pid : Pid) : Machine := { m with shells := (pid, []) :: m.shells }

def quit (m : Machine) (pid : Pid) : Machine := { m with shells := m.shells.filter (·.1 ≠ pid) }

end Machine

structure Variable where
  value : Option Text
  exported : Bool
  fixed : Bool
deriving DecidableEq, Repr

inductive Flow where
  | onward
  /-- After some loops, or at the start of the outermost of them. -/
  | afterLoops (levels : Nat) (again : Bool)
  /-- After a function. -/
  | afterFunction
  /-- Nowhere. -/
  | ended (how : ProcessEnd)
deriving DecidableEq, Repr

structure Shell extends Task where
  /-- The number of the process. -/
  pid : Pid
  /-- The number that scripts are told. -/
  told : Pid
  arguments : List Text
  bindings : List (Text × Variable)
  functions : List (Text × Script)
  /-- What the variables of each function that is running were before. -/
  before : List (List (Text × Option Variable))
  /-- What is done on signals; the number zero stands for the end. -/
  traps : List (Nat × Text)
  /-- Signals that the shell has been started without. -/
  ignored : List Nat
  /-- The status before what is done on a signal. -/
  statusBefore : Option Nat
  options : List Char
  lastJob : Option Pid
  /-- The status of the last script whose output has been put in. -/
  outputStatus : Option Nat
  /-- The number of loops around. -/
  loops : Nat
  /-- The number of letters read of the argument with options. -/
  lettersRead : Nat
  line : Nat
  flow : Flow

namespace Shell

def onTask (s : Shell) (f : Task → Task) : Shell := { s with toTask := f s.toTask }

def onMachine (s : Shell) (f : Machine → Machine) : Shell := s.onTask (·.onMachine f)

def withStatus (s : Shell) (n : Nat) : Shell := s.onTask (·.withStatus n)

def goesOn (s : Shell) : Bool := s.flow = .onward

def halt (s : Shell) (how : ProcessEnd) : Shell := { s with flow := .ended how }

def optionLetters : List Char := "efIimnsxvVECabu".toList

def has (s : Shell) (option : Char) : Bool := option ∈ s.options

def complain (s : Shell) (text : Text) : Shell :=
  s.onTask (·.complain (s.name ++ ": ".toList ++ Text.decimal s.line ++ ": ".toList ++ text))

/-- A fault that ends a script. -/
def abort (s : Shell) (text : Text) : Shell := (s.complain text).halt (.exited 2)

/-- A fault of a command; a script goes on unless the command is one of the essential ones. -/
def refuse (s : Shell) (essential : Bool) (text : Text) : Shell :=
  if essential then s.abort text else (s.complain text).withStatus 2

/-! ## Variables -/

def binding? (s : Shell) (name : Text) : Option Variable := s.bindings.lookup name

def get? (s : Shell) (name : Text) : Option Text :=
  if name = "LINENO".toList then some (Text.decimal s.line) else (s.binding? name).bind Variable.value

/-- The shell with another variable of a name, or without one. -/
def replace (s : Shell) (name : Text) (v : Option Variable) : Shell :=
  { s with
    bindings :=
      match v with
      | none => s.bindings.filter (·.1 ≠ name)
      | some v =>
        if (s.bindings.lookup name).isSome then s.bindings.map fun (n, w) => if n = name then (n, v) else (n, w)
        else s.bindings ++ [(name, v)] }

def assign (s : Shell) (name value : Text) : Shell :=
  match s.binding? name with
  | some v =>
    if v.fixed then s.abort (name ++ ": is read only".toList)
    else s.replace name (some { v with value := some value })
  | none => s.replace name (some ⟨some value, s.has 'a', false⟩)

/-- The shell with a change to a variable that may be new. -/
def mark (s : Shell) (name : Text) (f : Variable → Variable) : Shell :=
  s.replace name (some (f ((s.binding? name).getD ⟨none, false, false⟩)))

/-- The characters at which what has been put in is cut into fields. -/
def separators (s : Shell) : Text := (s.get? "IFS".toList).getD [' ', '\t', '\n']

def parameter? (s : Shell) (name : Text) : Option Text :=
  match name with
  | ['@'] => some ([' '].intercalate s.arguments)
  | ['*'] => some ((s.separators.take 1).intercalate s.arguments)
  | ['#'] => some (Text.decimal s.arguments.length)
  | ['?'] => some (Text.decimal s.status)
  | ['$'] => some (Text.decimal s.told)
  | ['!'] => s.lastJob.map Text.decimal
  | ['-'] => some (optionLetters.reverse.filter (· ∈ s.options))
  | ['0'] => some s.name
  | _ =>
    match Text.readDecimal name with
    | some n => s.arguments[n - 1]?
    | none => s.get? name

/-- The machine as the programs see it that the shell starts: with the variables that are handed down. -/
def handedDown (s : Shell) : Machine :=
  let m := s.machine
  let entry : Text × Variable → Option (Bytes × Bytes) := fun (name, v) =>
    if ¬v.exported then none
    else
      v.value.map fun value =>
        let key := Text.toUtf8 name
        match m.environment.get? key with
        | some bytes => (key, if Text.ofUtf8Lossy bytes = value then bytes else Text.toUtf8 value)
        | none => (key, Text.toUtf8 value)
  { m with environment := s.bindings.filterMap entry }

def lookingMachine (s : Shell) : Machine :=
  match s.get? "PATH".toList with
  | some path =>
    { s.machine with environment := s.machine.environment.set (Text.toUtf8 "PATH".toList) (Text.toUtf8 path) }
  | none => { s.machine with environment := s.machine.environment.erase (Text.toUtf8 "PATH".toList) }

/-! ## Signals -/

def isDeaf (s : Shell) (number : Nat) : Bool :=
  number ∈ s.ignored || s.traps.lookup number = some []

/-- What becomes of the shell by a signal: nothing, its end, or something to do first. -/
def effect (s : Shell) (number : Nat) : Option (ProcessEnd ⊕ Text) :=
  if number = Signal.kill.number then some (.inl (.signaled number))
  else if s.isDeaf number then none
  else
    match s.traps.lookup number with
    | some action => some (.inr action)
    | none => if Signal.actionOfNumber number = .terminate then some (.inl (.signaled number)) else none

/-- The signals that have reached the shell by now and have an effect, and the shell without them. -/
def takeSignals (s : Shell) : List Nat × Shell :=
  let sent := (s.machine.shells.lookup s.pid).getD []
  let due := sent.filter fun (time, _) => time ≤ s.machine.clock
  let left := sent.filter fun (time, _) => s.machine.clock < time
  (due.map Prod.snd,
    s.onMachine fun m =>
      { m with shells := m.shells.map fun (p, l) => if p = s.pid then (p, left) else (p, l) })

/-- The first signal with an effect that reaches the shell before a time. -/
def firstSignal? (s : Shell) (limit : Nat) : Option (Nat × Nat) :=
  (((s.machine.shells.lookup s.pid).getD []).filter fun (time, number) =>
    time < limit && (s.effect number).isSome).head?

def deathNotice (number : Nat) : Text :=
  match Signal.ofNumber? number with
  | some signal => signal.description
  | none =>
    if number < 34 then "Unknown signal ".toList ++ Text.decimal number
    else "Real-time signal ".toList ++ Text.decimal (number - 34)

/-- Says how a process has ended that the shell has waited for, if it has died of a signal that nobody expects. -/
def report (s : Shell) (how : ProcessEnd) : Shell :=
  match how with
  | .exited _ => s
  | .signaled number =>
    if number = Signal.int.number ∨ number = Signal.pipe.number then s else s.onTask (·.complain (deathNotice number))

/-- The number of the signal that a text names, by number or by name, in capital letters or not. Shells do not know
the name of every signal; those that have none are counted from the first one or from the last one. -/
def signalNumber? (t : Text) : Option Nat :=
  let first := 34
  let name := t.map Char.toUpper
  match Text.readDecimal t with
  | some n => if n ≤ Signal.lastNumber then some n else none
  | none =>
    if name = "EXIT".toList then some 0
    else if name = "RTMIN".toList then some first
    else if name = "RTMAX".toList then some Signal.lastNumber
    else if name.take 6 = "RTMIN+".toList then
      ((Text.readDecimal (name.drop 6)).filter fun n => 1 ≤ n ∧ n ≤ 15).map (first + ·)
    else if name.take 6 = "RTMAX-".toList then
      ((Text.readDecimal (name.drop 6)).filter fun n => 1 ≤ n ∧ n ≤ 14).map (Signal.lastNumber - ·)
    else ((Signal.ofName? ("SIG".toList ++ name)).filter (· ≠ .stkflt)).map Signal.number

/-! ## Start and end -/

def firstVariables (m : Machine) (parent : Pid) : List (Text × Variable) :=
  let own : List (Text × Text) :=
    [("IFS".toList, [' ', '\t', '\n']), ("OPTIND".toList, ['1']), ("PPID".toList, Text.decimal parent)]
  own.map (fun (name, v) => (name, ⟨some v, false, false⟩)) ++
    m.environment.filterMap fun (name, v) =>
      let name := Text.ofUtf8Lossy name
      if ScriptWord.isName name ∧ own.all (·.1 ≠ name) then some (name, ⟨some (Text.ofUtf8Lossy v), true, false⟩)
      else none

def start (t : Task) (pid parent : Pid) (ignored : List Nat) (options : List Char) (arguments : List Text) :
    Shell where
  toTask := { t with machine := t.machine.enter pid, status := 0 }
  pid := pid
  told := pid
  arguments := arguments
  bindings := firstVariables t.machine parent
  functions := []
  before := []
  traps := []
  ignored := ignored
  statusBefore := none
  options := options
  lastJob := none
  outputStatus := none
  loops := 0
  lettersRead := 0
  line := 1
  flow := .onward

/-- How a shell ends that has come to the end of its script or has been told to end. -/
def ending (s : Shell) : ProcessEnd :=
  match s.flow with
  | .ended how => how
  | _ => .exited s.status

end Shell
end BucketMount
