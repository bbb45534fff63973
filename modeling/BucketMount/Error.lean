import BucketMount.Process.Status
import BucketMount.Text.Utf8
import BucketMount.Worker.Report

/-!
# Errors

Each way to fail is a value that names its cause; `MountError.message` is the one place where it gets words. A part of
the system that is not described here (a back end of its own, a library) may report a cause in its own words
(`stated`).
-/

namespace BucketMount

inductive ParseReason where
  | emptySpecification
  | noPathAfterBucket
  | emptyBucketName
  | bucketNameContains (c : Char)
  | emptyPath
  | separatorInPath
  | separatorInFlags
  | nothingRequested
  | pathNotAbsolute
  | stated (text : Text)
deriving DecidableEq, Repr

def ParseReason.message : ParseReason → Text
  | emptySpecification => "empty mount specification".toList
  | noPathAfterBucket => "no mount path after bucket field".toList
  | emptyBucketName => "bucket name is empty".toList
  | bucketNameContains c => "bucket name contains '".toList ++ c :: "'".toList
  | emptyPath => "mount path is empty".toList
  | separatorInPath => "mount path must not contain ':' or ';'".toList
  | separatorInFlags => "flags must not contain ';'".toList
  | nothingRequested => "no mount directive given".toList
  | pathNotAbsolute => "mount path is not absolute".toList
  | stated text => text

/-- A failure of the file system or of another source of bytes. -/
inductive IoCause where
  | inspect (path : Text) (errno : Errno)
  | create (path : Text) (errno : Errno)
  | readStatus (errno : Errno)
  | stated (text : Text)
deriving DecidableEq, Repr

def IoCause.message : IoCause → Text
  | inspect path e => "failed to inspect ".toList ++ path ++ ": ".toList ++ e.message
  | create path e => "failed to create ".toList ++ path ++ ": ".toList ++ e.message
  | readStatus e => e.libraryMessage
  | stated text => text

/-- Why a file could not be read as text. -/
inductive FileFault where
  | system (errno : Errno)
  | nulInName
  | notText
deriving DecidableEq, Repr

def FileFault.message : FileFault → Text
  | system e => e.libraryMessage
  | nulInName => "file name contained an unexpected NUL byte".toList
  | notText => "stream did not contain valid UTF-8".toList

inductive ConfigFault where
  | transportVar (name : Text)
  | transportCapacity
  | helperBinary
  | unmountCommands
  | mode (field : Text) (bits : Nat)
  | pollInterval
  | readinessTimeout (timeout interval : Nat)
deriving DecidableEq, Repr

def ConfigFault.message : ConfigFault → Text
  | transportVar name => "invalid transport_var '".toList ++ name ++ "'".toList
  | transportCapacity => "transport_capacity must be positive".toList
  | helperBinary => "helper_binary must not be empty".toList
  | unmountCommands => "unmount commands must not be empty".toList
  | mode field bits => field ++ " ".toList ++ Text.octal bits ++ " is not a permission mode".toList
  | pollInterval => "poll_interval_ms must be positive".toList
  | readinessTimeout timeout interval =>
    "readiness_timeout_ms (".toList ++ Text.decimal timeout ++ ") is shorter than poll_interval_ms (".toList ++
      Text.decimal interval ++ ")".toList

inductive ConfigCause where
  | readBackAsBucket (token : Text)
  | listTooLarge (size capacity : Nat)
  | baseNotText (base : Bytes)
  | baseNotAbsolute (base : Text)
  | variableNotText (name : Text)
  | nulInArgument (position : Nat)
  | unreadable (path : Text) (fault : FileFault)
  | unparsable (path : Text)
  | invalid (faults : List ConfigFault)
  | stated (text : Text)
deriving DecidableEq, Repr

def ConfigCause.message : ConfigCause → Text
  | readBackAsBucket token =>
    "Directive '".toList ++ token ++ "' would be read back as a bucket name; use an explicit path".toList
  | listTooLarge size capacity =>
    "Encoded mount list is ".toList ++ Text.decimal size ++ " bytes, transport holds at most ".toList ++
      Text.decimal (capacity - 1)
  | baseNotText base => "Base directory ".toList ++ Text.ofUtf8Lossy base ++ " is not UTF-8".toList
  | baseNotAbsolute base => "Base directory ".toList ++ base ++ " is not absolute".toList
  | variableNotText name => name ++ " is not valid UTF-8".toList
  | nulInArgument position =>
    "argument contains NUL byte: nul byte found in provided data at position: ".toList ++ Text.decimal position
  | unreadable path fault => "Failed to read ".toList ++ path ++ ": ".toList ++ fault.message
  | unparsable path => "Failed to parse ".toList ++ path
  | invalid faults => "; ".toList.intercalate (faults.map ConfigFault.message)
  | stated text => text

inductive LaunchFault where
  | system (errno : Errno)
  | nulInArgument
  | emptyCommand
deriving DecidableEq, Repr

def LaunchFault.message : LaunchFault → Text
  | system e => e.libraryMessage
  | nulInArgument => "nul byte found in provided data".toList
  | emptyCommand => "empty unmount command".toList

inductive SpawnCause where
  | pipe (errno : Errno)
  | fork (errno : Errno)
  | redirect (errno : Errno)
  | wait (pid : Pid) (errno : Errno)
  | unknownStatus (pid : Pid)
  | truncatedStatus (pid : Pid) (bytes : Nat)
  | relay (program : Text) (fault : LaunchFault)
  | stated (text : Text)
deriving DecidableEq, Repr

def SpawnCause.message : SpawnCause → Text
  | pipe e => "pipe2 failed: ".toList ++ e.message
  | fork e => "fork failed: ".toList ++ e.message
  | redirect e => "failed to redirect helper output: ".toList ++ e.message
  | wait pid e => "waitpid(".toList ++ Text.decimal pid ++ "): ".toList ++ e.message
  | unknownStatus pid => "worker ".toList ++ Text.decimal pid ++ " sent an unknown status".toList
  | truncatedStatus pid bytes =>
    "worker ".toList ++ Text.decimal pid ++ " sent a truncated status (".toList ++ Text.decimal bytes ++
      " bytes)".toList
  | relay program fault => "failed to start log relay ".toList ++ program ++ ": ".toList ++ fault.message
  | stated text => text

/-- A program that did not come to run in place of its worker. -/
inductive ExecCause where
  | helper (program : Text) (errno : Errno)
  | command (report : Report)
  | stated (text : Text)
deriving DecidableEq, Repr

def ExecCause.message : ExecCause → Text
  | helper program e => "execvp failed for ".toList ++ program ++ ": ".toList ++ e.message
  | command report => report.stage.name ++ " failed: ".toList ++ report.errno.message
  | stated text => text

inductive PrivilegeCause where
  | switch (uid gid : Nat) (errno : Errno)
  | stated (text : Text)
deriving DecidableEq, Repr

def PrivilegeCause.message : PrivilegeCause → Text
  | switch uid gid e =>
    "failed to switch to uid=".toList ++ Text.decimal uid ++ " gid=".toList ++ Text.decimal gid ++ ": ".toList ++
      e.message
  | stated text => text

/-- How a mount helper ended that should have gone on. -/
inductive HelperEnd where
  | status (pid : Pid) (status : WaitStatus)
  | stated (text : Text)
deriving DecidableEq, Repr

def HelperEnd.message : HelperEnd → Text
  | status pid s => s.message pid
  | stated text => text

inductive TeardownCause where
  | stillMounted
  | stated (text : Text)
deriving DecidableEq, Repr

def TeardownCause.message : TeardownCause → Text
  | stillMounted => "still mounted after graceful and lazy unmount".toList
  | stated text => text

/-- Every way in which a mount, or what leads to it, can fail. -/
inductive MountError where
  | io (cause : IoCause)
  | parse (token : Text) (reason : ParseReason)
  /-- The path belongs to the first bucket and is asked for the second; both as they are shown. -/
  | conflict (path existing requested : Text)
  | config (cause : ConfigCause)
  | validation (path : Text) (violation : PathViolation)
  | privilege (cause : PrivilegeCause)
  | spawn (cause : SpawnCause)
  | exec (cause : ExecCause)
  | timeout (path : Text) (waitedMs : Nat)
  | helperExited (path : Text) (how : HelperEnd)
  | teardown (path : Text) (cause : TeardownCause)
  | setup (failed total : Nat)
deriving DecidableEq, Repr

def MountError.message : MountError → Text
  | io cause => "IO error: ".toList ++ cause.message
  | parse token reason => "Parse error in '".toList ++ token ++ "': ".toList ++ reason.message
  | conflict path existing requested =>
    "Conflict: mountpoint '".toList ++ path ++ "' is already assigned to bucket ".toList ++ existing ++
      ", cannot mount bucket ".toList ++ requested
  | config cause => "Configuration error: ".toList ++ cause.message
  | validation path violation => "Mount path ".toList ++ path ++ " ".toList ++ violation.message
  | privilege cause => "Privilege error: ".toList ++ cause.message
  | spawn cause => "Spawn error: ".toList ++ cause.message
  | exec cause => "Exec error: ".toList ++ cause.message
  | timeout path waitedMs =>
    "Timed out after ".toList ++ Text.decimal waitedMs ++ "ms waiting for mountpoint ".toList ++ path
  | helperExited path how =>
    "Mount helper for ".toList ++ path ++ " exited before the mount was ready: ".toList ++ how.message
  | teardown path cause => "Teardown of ".toList ++ path ++ " failed: ".toList ++ cause.message
  | setup failed total =>
    Text.decimal failed ++ " of ".toList ++ Text.decimal total ++ " mount directives failed".toList

end BucketMount
