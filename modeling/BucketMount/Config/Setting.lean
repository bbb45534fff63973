import BucketMount.Config.Basic
import BucketMount.Json.Basic

/-!
# The settings by name

Each setting has a name, a form in which it is written (`Setting.write`) and a way to read that form into a
configuration (`Setting.read?`).
-/

namespace BucketMount

/-- A setting of the configuration, in the order in which an array lists them. -/
inductive Setting where
  | transportVar
  | transportCapacity
  | helperBinary
  | helperOptions
  | fileMode
  | dirMode
  | logFormat
  | mountDirMode
  | unmountCommand
  | lazyUnmountCommand
  | logRelayCommand
  | pollIntervalMs
  | readinessTimeoutMs
  | helperGraceMs
deriving DecidableEq, Repr

namespace Setting

def all : List Setting :=
  [transportVar, transportCapacity, helperBinary, helperOptions, fileMode, dirMode, logFormat, mountDirMode,
    unmountCommand, lazyUnmountCommand, logRelayCommand, pollIntervalMs, readinessTimeoutMs, helperGraceMs]

theorem mem_all (s : Setting) : s ∈ all := by
  cases s <;> decide

def name : Setting → Text
  | transportVar => "transport_var".toList
  | transportCapacity => "transport_capacity".toList
  | helperBinary => "helper_binary".toList
  | helperOptions => "helper_options".toList
  | fileMode => "file_mode".toList
  | dirMode => "dir_mode".toList
  | logFormat => "log_format".toList
  | mountDirMode => "mount_dir_mode".toList
  | unmountCommand => "unmount_command".toList
  | lazyUnmountCommand => "lazy_unmount_command".toList
  | logRelayCommand => "log_relay_command".toList
  | pollIntervalMs => "poll_interval_ms".toList
  | readinessTimeoutMs => "readiness_timeout_ms".toList
  | helperGraceMs => "helper_grace_ms".toList

def ofName? (t : Text) : Option Setting := all.find? (·.name = t)

theorem ofName?_name (s : Setting) : ofName? s.name = some s := by
  cases s <;> decide

def natBelow? (bound : Nat) (v : Json) : Option Nat := v.nat?.filter (· < bound)

/-- The numbers of 32 bits, for modes. -/
def wordBound : Nat := 0x100000000

/-- The numbers of 64 bits, for sizes and times. -/
def longBound : Nat := 0x10000000000000000

/-- The configuration with one setting read from a value, if the value has the form of the setting. -/
def read? (s : Setting) (v : Json) (c : Config) : Option Config :=
  match s with
  | transportVar => v.text?.map fun t => { c with transportVar := t }
  | transportCapacity => (natBelow? longBound v).map fun n => { c with transportCapacity := n }
  | helperBinary => v.text?.map fun t => { c with helperBinary := t }
  | helperOptions => v.texts?.map fun l => { c with helperOptions := l }
  | fileMode => (natBelow? wordBound v).map fun n => { c with fileMode := n }
  | dirMode => (natBelow? wordBound v).map fun n => { c with dirMode := n }
  | logFormat => v.text?.map fun t => { c with logFormat := t }
  | mountDirMode => (natBelow? wordBound v).map fun n => { c with mountDirMode := n }
  | unmountCommand => v.texts?.map fun l => { c with unmountCommand := l }
  | lazyUnmountCommand => v.texts?.map fun l => { c with lazyUnmountCommand := l }
  | logRelayCommand => v.texts?.map fun l => { c with logRelayCommand := l }
  | pollIntervalMs => (natBelow? longBound v).map fun n => { c with pollIntervalMs := n }
  | readinessTimeoutMs => (natBelow? longBound v).map fun n => { c with readinessTimeoutMs := n }
  | helperGraceMs => (natBelow? longBound v).map fun n => { c with helperGraceMs := n }

def write (s : Setting) (c : Config) : Json :=
  match s with
  | transportVar => .text c.transportVar
  | transportCapacity => .nat c.transportCapacity
  | helperBinary => .text c.helperBinary
  | helperOptions => .texts c.helperOptions
  | fileMode => .nat c.fileMode
  | dirMode => .nat c.dirMode
  | logFormat => .text c.logFormat
  | mountDirMode => .nat c.mountDirMode
  | unmountCommand => .texts c.unmountCommand
  | lazyUnmountCommand => .texts c.lazyUnmountCommand
  | logRelayCommand => .texts c.logRelayCommand
  | pollIntervalMs => .nat c.pollIntervalMs
  | readinessTimeoutMs => .nat c.readinessTimeoutMs
  | helperGraceMs => .nat c.helperGraceMs

end Setting

namespace Config

def toJson (c : Config) : Json := .record (Setting.all.map fun s => (s.name, s.write c))

/-- A configuration with the settings that have been read so far. -/
abbrev Partial := Config × List Setting

/-- One member of the file: a key that is no setting is skipped, a setting may come once. -/
def readMember? : Partial → Option Text × Json → Option Partial
  | _, (none, _) => none
  | (c, seen), (some key, v) =>
    match Setting.ofName? key with
    | none => some (c, seen)
    | some s => if s ∈ seen then none else (s.read? v c).map (·, s :: seen)

/-- The standard configuration with the settings of a file: an object of named settings, or an array of the first
settings in their order. -/
def ofJson? : Json → Option Config
  | .object members => (members.foldlM readMember? (standard, [])).map Prod.fst
  | .array values =>
    if Setting.all.length < values.length then none
    else (Setting.all.zip values).foldlM (fun c (s, v) => s.read? v c) standard
  | _ => none

end Config
end BucketMount
