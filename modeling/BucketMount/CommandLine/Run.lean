import BucketMount.CommandLine.Arguments
import BucketMount.CommandLine.Failure
import BucketMount.Config.File
import BucketMount.Helper.Basic
import BucketMount.Hooks.Capture
import BucketMount.MountList.Listing
import BucketMount.Step

/-!
# The program

What each command does and which exit code it ends with: 0 if it did what was asked, 1 if that failed, 2 for a line
that is no command. A step ends with the code of its command.
-/

namespace BucketMount.CommandLine

def versionLine : Text := "bucketmount 0.1.0\n".toList

def helpLines : Text :=
  ("Mount object-storage buckets for batch jobs\n\nUsage: bucketmount <COMMAND>\n\n" ++
    "Commands:\n  capture  --mount SPEC... [--cwd DIR]\n  show\n  prolog   [--uid UID] [--gid GID]\n  epilog\n" ++
    "  step     [--uid UID] [--gid GID] -- COMMAND...\n  probe    [--uid UID] [--gid GID] PATH\n").toList

inductive Outcome where
  | code (n : Nat)
  /-- The program broke off. -/
  | aborted
  /-- The command of a step is still running. -/
  | unfinished
deriving DecidableEq, Repr

structure Trouble where
  context : Option Text
  error : MountError
deriving DecidableEq, Repr

def Trouble.shown (t : Trouble) : Text := showChain (t.context.toList ++ t.error.chain)

abbrev Answer := Except Trouble Outcome

variable {ω : Type} (k : Kernel ω)

def say (t : Text) : StateM (Guarded ω) Unit := Kernel.guarded (k.print (Text.toUtf8 t))

def complain (t : Text) : StateM (Guarded ω) Unit := Kernel.guarded (k.printError (Text.toUtf8 t))

def done : Answer := .ok (.code 0)

def failed (error : MountError) : Answer := .error ⟨none, error⟩

/-- The user and group a command is about: those of the program unless others are given. -/
def identity (user : UserChoice) (w : ω) : Identity :=
  let uid := user.uid.getD (k.credentials w).realUser
  Identity.resolve (k.account uid) uid (user.gid.getD (k.credentials w).realGroup)

def stored (c : Config) (w : ω) : Except MountError (Option Text) := (Transport.ofConfig c).load (k.environment w)

/-- Captures the requests one after the other and answers the environment with the result. -/
def captureAll (c : Config) (base : Bytes) : List Text → StateM Environment (Except (Text × Failure) Unit)
  | [] => return .ok ()
  | spec :: rest => do
    match ← Hooks.capture (Transport.ofConfig c) spec base with
    | .error failure => return .error (spec, failure)
    | .ok _ => captureAll c base rest

def capture (c : Config) (mounts : List Text) (base : Option Text) : StateM (Guarded ω) Answer := do
  let w := (← get).world
  let base := base.elim (k.workingDirectory w) Text.toUtf8
  match (captureAll c base mounts).run (k.environment w) with
  | (.error (_, .aborted), _) => return .ok .aborted
  | (.error (spec, .refused e), _) => return .error ⟨some ("rejected --mount ".toList ++ spec), e⟩
  | (.ok (), env) =>
    match (Transport.ofConfig c).load env with
    | .error e => return failed e
    | .ok t =>
      say k (t.getD [] ++ ['\n'])
      return done

def showList (c : Config) : StateM (Guarded ω) Answer := do
  match stored k c (← get).world with
  | .error e => return failed e
  | .ok t =>
    match MountList.decode (t.getD []) with
    | .error e => return failed e
    | .ok l =>
      say k (l.toJson.pretty ++ ['\n'])
      return done

def prolog (c : Config) (user : UserChoice) : StateM (Guarded ω) Answer := do
  let w := (← get).world
  match ← Kernel.guarded (Hooks.nodeSetup (k.helperBackend c) (identity k user w) (stored k c w)) with
  | .error e => return failed e
  | .ok report =>
    report.failed.forM fun (what, e) => complain k (what ++ ": ".toList ++ e.message ++ ['\n'])
    match report.result with
    | .error e => return failed e
    | .ok () => return done

def epilog (c : Config) : StateM (Guarded ω) Answer := do
  match ← Kernel.guarded (Hooks.nodeTeardown (k.helperBackend c) (stored k c (← get).world)) with
  | .error e => return failed e
  | .ok failures =>
    if 0 < failures then
      complain k ("Warning: ".toList ++ Text.decimal failures ++ " mount(s) could not be detached\n".toList)
    return done

def step (c : Config) (user : UserChoice) (words : List Text) (looks : Nat) : StateM (Guarded ω) Answer := do
  let w := (← get).world
  let args := words.map Text.toUtf8
  let tracker := Tracker.empty (milliseconds c.helperGraceMs)
  match ← k.step (k.helperBackend c) (identity k user w) (stored k c w) tracker args looks with
  | (.noMounts e, _) => return failed e
  | (.command (.code n), _) => return .ok (.code n)
  | (.command (.failed e), _) => return .error ⟨some ("failed to run ".toList ++ words.headD []), e⟩
  | (.command .unfinished, _) => return .ok .unfinished

/-- Says whether a path is a mountpoint, for the job user if one is given. -/
def probe (path : Text) (user : UserChoice) : StateM (Guarded ω) Answer := do
  let bytes := Text.toUtf8 path
  let asked : StateM ω Bool := fun w =>
    if user.uid.isSome || user.gid.isSome then k.isMountedAs (identity k user w) bytes w
    else k.isMountedHere bytes w
  if ← Kernel.guarded asked then
    say k (path ++ " is mounted\n".toList)
    return done
  else
    say k (path ++ " is not mounted\n".toList)
    return .ok (.code 1)

def perform (c : Config) (looks : Nat) : Command → StateM (Guarded ω) Answer
  | .capture mounts base => capture k c mounts base
  | .show => showList k c
  | .prolog user => prolog k c user
  | .epilog => epilog k c
  | .step user words => step k c user words looks
  | .probe path user => probe k path user

def configuration : StateM (Guarded ω) (Except Trouble Config) := do
  let named := (k.environment (← get).world).get? (Text.toUtf8 Config.pathVar)
  let answer ← Config.ofEnvironment named fun path => Kernel.guarded (k.readFile path)
  return answer.mapError (⟨some "failed to load configuration".toList, ·⟩)

def obey (command : Command) (looks : Nat) : StateM (Guarded ω) Answer := do
  match ← configuration k with
  | .error trouble => return .error trouble
  | .ok c => perform k c looks command

/-- Runs the program on the words of a line. A command of a step that is still running after `looks` looks leaves the
program unfinished. -/
def run (words : List Text) (looks : Nat) : StateM (Guarded ω) Outcome := do
  match Command.parse words with
  | .error .usage => return .code 2
  | .error .version =>
    say k versionLine
    return .code 0
  | .error .help =>
    say k helpLines
    return .code 0
  | .ok command =>
    match ← obey k command looks with
    | .ok outcome => return outcome
    | .error trouble =>
      complain k trouble.shown
      return .code 1

end BucketMount.CommandLine
