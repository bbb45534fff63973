import BucketMount.Error

/-!
# Configuration

What a site can set: how the list of mounts travels, which helper serves a mount and with which options, how mounts
are detached, and how long anything may take. `Config.faults` lists the settings that make no sense, in the order in
which they are reported.
-/

namespace BucketMount

structure Config where
  /-- The environment variable that carries the encoded list. -/
  transportVar : Text
  /-- The buffer in which the variable is read, with the closing zero. -/
  transportCapacity : Nat
  /-- The mount helper, looked up like a command. -/
  helperBinary : Text
  /-- Options of the helper after the fixed ones. -/
  helperOptions : List Text
  /-- Permission bits that files in the mount show. -/
  fileMode : Nat
  /-- Permission bits that directories in the mount show. -/
  dirMode : Nat
  /-- The format of the helper's log. -/
  logFormat : Text
  /-- The mode of a mount directory that has to be created. -/
  mountDirMode : Nat
  /-- The graceful detach command, to which the mount path is appended. -/
  unmountCommand : List Text
  /-- The detach command for a mount that the graceful one leaves behind. -/
  lazyUnmountCommand : List Text
  /-- The process that reads the helper's output; no words, no process. -/
  logRelayCommand : List Text
  pollIntervalMs : Nat
  readinessTimeoutMs : Nat
  /-- The time a helper gets to end by itself. -/
  helperGraceMs : Nat
deriving DecidableEq, Repr

namespace Config

/-- The settings of a site that sets nothing. -/
def standard : Config where
  transportVar := "GCSFUSE_MOUNTS".toList
  transportCapacity := 4096
  helperBinary := "gcsfuse".toList
  helperOptions := []
  fileMode := 0o644
  dirMode := 0o755
  logFormat := "json".toList
  mountDirMode := 0o755
  unmountCommand := ["fusermount".toList, "-u".toList]
  lazyUnmountCommand := ["fusermount".toList, "-uz".toList]
  logRelayCommand := ["logger".toList, "-t".toList, "gcsfuse-mount".toList]
  pollIntervalMs := 500
  readinessTimeoutMs := 10000
  helperGraceMs := 200

instance : Inhabited Config := ⟨standard⟩

def maxMode : Nat := 0o7777

/-- The settings that make no sense. -/
def faults (c : Config) : List ConfigFault :=
  let mode (field : String) (bits : Nat) : List ConfigFault :=
    if maxMode < bits then [.mode field.toList bits] else []
  (if c.transportVar = [] ∨ '=' ∈ c.transportVar then [.transportVar c.transportVar] else []) ++
  (if c.transportCapacity = 0 then [.transportCapacity] else []) ++
  (if c.helperBinary = [] then [.helperBinary] else []) ++
  (if c.unmountCommand = [] ∨ c.lazyUnmountCommand = [] then [.unmountCommands] else []) ++
  mode "file_mode" c.fileMode ++ mode "dir_mode" c.dirMode ++ mode "mount_dir_mode" c.mountDirMode ++
  (if c.pollIntervalMs = 0 then [.pollInterval] else []) ++
  (if c.readinessTimeoutMs < c.pollIntervalMs then
    [.readinessTimeout c.readinessTimeoutMs c.pollIntervalMs] else [])

def validate (c : Config) : Except MountError Config :=
  match c.faults with
  | [] => .ok c
  | faults => .error (.config (.invalid faults))

end Config
end BucketMount
