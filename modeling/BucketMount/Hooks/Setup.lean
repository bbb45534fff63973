import BucketMount.Backend
import BucketMount.MountList.Wire

/-!
# Setting up the mounts of a node or a step

Every well-formed token with an absolute path is mounted, whatever became of those before it. What came of each is an
`Attempt`; the report sorts the attempts, after the tokens that are no directives.
-/

namespace BucketMount

/-- What came of one directive. -/
inductive Attempt where
  | mounted (helper : Pid) (relay : Option Pid)
  | alreadyMounted
  | failed (error : MountError)
deriving DecidableEq, Repr

namespace Attempt

def ofAnswer : Except MountError MountOutcome → Attempt
  | .ok (.mounted helper relay) => mounted helper relay
  | .ok .alreadyMounted => alreadyMounted
  | .error e => failed e

def isMounted : Attempt → Bool
  | mounted _ _ => true
  | _ => false

def isAlreadyMounted : Attempt → Bool
  | alreadyMounted => true
  | _ => false

def error? : Attempt → Option MountError
  | failed e => some e
  | _ => none

end Attempt

/-- What a setup did, token by token. -/
structure SetupReport where
  mounted : List Text
  alreadyMounted : List Text
  failed : List (Text × MountError)
deriving DecidableEq, Repr

namespace SetupReport

def total (r : SetupReport) : Nat := r.mounted.length + r.alreadyMounted.length + r.failed.length

def isSuccess (r : SetupReport) : Bool := r.failed.isEmpty

/-- The error of a setup in which something failed. -/
def result (r : SetupReport) : Except MountError Unit :=
  if r.isSuccess then .ok () else .error (.setup r.failed.length r.total)

/-- What a token that is no directive is called. -/
def label : MountError → Text
  | .parse token _ => token
  | e => e.message

/-- The report of the tokens that are no directives and of the attempts. -/
def ofAttempts (malformed : List MountError) (attempts : List (Directive × Attempt)) : SetupReport where
  mounted := (attempts.filter (·.2.isMounted)).map (·.1.token)
  alreadyMounted := (attempts.filter (·.2.isAlreadyMounted)).map (·.1.token)
  failed := malformed.map (fun e => (label e, e)) ++
    attempts.filterMap fun (d, a) => a.error?.map (d.token, ·)

end SetupReport

namespace Hooks

variable {σ : Type} (backend : Backend σ)

/-- Mounts one directive; a relative path is refused without asking the back end. -/
def attempt (id : Identity) (d : Directive) : StateM σ Attempt := do
  if d.isAbsolute then return .ofAnswer (← backend.mount d id)
  else return .failed (.parse d.token .pathNotAbsolute)

def attemptAll (id : Identity) (l : MountList) : StateM σ (List (Directive × Attempt)) :=
  l.mapM fun d => do return (d, ← attempt backend id d)

/-- Mounts what a stored text asks for, with the attempts beside the report. -/
def mountAll (id : Identity) (stored : Option Text) : StateM σ (SetupReport × List (Directive × Attempt)) := do
  let (l, malformed) := MountList.decodeLenient (stored.getD [])
  let attempts ← attemptAll backend id l
  return (.ofAttempts malformed attempts, attempts)

def nodeSetup (id : Identity) (stored : Except MountError (Option Text)) :
    StateM σ (Except MountError SetupReport) := do
  match stored with
  | .error e => return .error e
  | .ok stored => return .ok (← mountAll backend id stored).1

end Hooks
end BucketMount
