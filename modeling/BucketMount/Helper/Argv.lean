import BucketMount.Config.Basic
import BucketMount.Directive.Basic
import BucketMount.Environment
import BucketMount.Identity

/-!
# What a mount helper is started with

The arguments of the helper are a fixed part, the options of the site, the words of the job owner's flags, the bucket
if one is named, and the mount path, which always comes last. Its environment is that of the program with the home
directory of the job user.
-/

namespace BucketMount

namespace Helper

/-- The arguments that every helper gets, its own name first. -/
def baseline (c : Config) (id : Identity) : List Text :=
  [c.helperBinary, "--foreground".toList, "--uid".toList, Text.decimal id.uid, "--gid".toList,
    Text.decimal id.gid, "--file-mode=".toList ++ Text.octal c.fileMode,
    "--dir-mode=".toList ++ Text.octal c.dirMode, "--log-format=".toList ++ c.logFormat]

def argv (c : Config) (id : Identity) (d : Directive) : List Text :=
  baseline c id ++ c.helperOptions ++ d.flagArgs ++ d.bucket.helperArg.toList ++ [d.path]

def homeVar : Bytes := Text.toUtf8 "HOME".toList

def environment (env : Environment) (id : Identity) : List Bytes :=
  match id.home with
  | none => env.entries
  | some home => Environment.entries (env.erase homeVar ++ [(homeVar, home)])

/-- The first argument with a zero byte cannot be passed on. -/
def checkStrings (args : List Bytes) : Except MountError Unit :=
  match args.find? (Environment.nul ∈ ·) with
  | some arg => .error (.config (.nulInArgument (arg.idxOf Environment.nul)))
  | none => .ok ()

end Helper
end BucketMount
