import BucketMount.CommandLine.Run
import BucketMount.Machine.Host

/-!
# Running the program

The command line, run on a machine of its own: what the words ask for is decided and said exactly as anywhere else,
and mounts and commands stay inside that machine. From outside come the words, the working directory, the
configuration file and the variable that carries the list.
-/

namespace BucketMount.Main

def bytesOf (s : String) : Bytes := Text.toUtf8 s.toList

def shown (bytes : Bytes) : String := String.ofList (Text.ofUtf8Lossy bytes)

def errnoOf : IO.Error → Errno
  | .noFileOrDirectory _ code _ => Errno.ofNumber code.toNat
  | .permissionDenied _ code _ => Errno.ofNumber code.toNat
  | .inappropriateType _ code _ => Errno.ofNumber code.toNat
  | _ => .eio

def contentOf (path : String) : IO (Except FileFault Bytes) := do
  try
    return .ok (← IO.FS.readBinFile path).toList
  catch e => return .error (.system (errnoOf e))

def environmentOf (name : String) : IO Environment := do
  return (← IO.getEnv name).toList.map fun v => (bytesOf name, bytesOf v)

/-- The looks at a running command before the program gives up. -/
def looks : Nat := 100000

def run (words : List String) : IO UInt32 := do
  let named ← environmentOf (String.ofList Config.pathVar)
  let content ← match named with
    | (_, path) :: _ => contentOf (shown path)
    | [] => pure (.error (.system .enoent))
  let c := match Id.run (Config.ofEnvironment (named.head?.map Prod.snd) fun _ => pure content) with
    | .ok c => c
    | .error _ => Config.standard
  let list ← environmentOf (String.ofList c.transportVar)
  let machine := Machine.host .usual (named ++ list) (bytesOf (toString (← IO.currentDir)))
  let kernel := { Machine.kernel .unrestricted Machine.accounts with readFile := fun _ => pure content }
  let (outcome, g) := (CommandLine.run kernel (words.map String.toList) looks).run ⟨.uniform .standard, machine⟩
  IO.print (shown g.world.out)
  IO.eprint (shown g.world.err)
  return match outcome with
    | .code n => UInt32.ofNat n
    | _ => 1

end BucketMount.Main

def main (args : List String) : IO UInt32 := BucketMount.Main.run args
