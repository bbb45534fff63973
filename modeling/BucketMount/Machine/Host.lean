import BucketMount.Machine.Kernel

/-!
# Setting up a machine

A machine for trying the program out: the files that every system has, files put there beforehand, and the program
started by the superuser. `FileSystem.place` puts one file at a path and says why it cannot.
-/

namespace BucketMount

inductive Content where
  | directory
  | regular (bytes : Bytes)
  | link (target : Bytes)
deriving DecidableEq, Repr

namespace FileSystem

def superuser : Credentials := .ofUser 0 0 [0]

/-- The bits that new files do not get unless a process says otherwise. -/
def usualMask : Nat := 0o022

def rootNumber : Nat := 1

def directoryNode (device mode parent : Nat) (entries : List (Bytes × Nat)) : Node :=
  ⟨device, .directory entries parent, mode, 0, 0⟩

/-- The files of every system: the directories at the root, the shell and the table of users. Processes, devices and
the system itself are files on devices of their own. -/
def usual : FileSystem where
  nodes :=
    [(1, directoryNode 1 0o755 1
        [(Text.toUtf8 "proc".toList, 2), (Text.toUtf8 "etc".toList, 4), (Text.toUtf8 "tmp".toList, 6),
          (Text.toUtf8 "dev".toList, 7), (Text.toUtf8 "sys".toList, 9), (Text.toUtf8 "usr".toList, 11),
          (Text.toUtf8 "bin".toList, 14), (Text.toUtf8 "var".toList, 15)]),
      (2, directoryNode 2 0o555 1 [(Text.toUtf8 "uptime".toList, 3)]),
      (3, ⟨2, .regular [], 0o444, 0, 0⟩),
      (4, directoryNode 1 0o755 1 [(Text.toUtf8 "passwd".toList, 5)]),
      (5, ⟨1, .regular (Text.toUtf8 "root:x:0:0:root:/root:/bin/sh\n".toList), 0o644, 0, 0⟩),
      (6, directoryNode 1 0o1777 1 []),
      (7, directoryNode 3 0o755 1 [(Text.toUtf8 "null".toList, 8)]),
      (8, ⟨3, .regular [], 0o666, 0, 0⟩),
      (9, directoryNode 4 0o555 1 [(Text.toUtf8 "kernel".toList, 10)]),
      (10, directoryNode 4 0o755 9 []),
      (11, directoryNode 1 0o755 1 [(Text.toUtf8 "bin".toList, 12)]),
      (12, directoryNode 1 0o755 11 [(Text.toUtf8 "sh".toList, 13)]),
      (13, ⟨1, .regular (Text.toUtf8 "\x7fELF".toList), 0o755, 0, 0⟩),
      (14, ⟨1, .link (Text.toUtf8 "usr/bin".toList), 0o777, 0, 0⟩),
      (15, directoryNode 1 0o755 1 [(Text.toUtf8 "lib".toList, 16)]),
      (16, directoryNode 1 0o755 15 [])]
  root := rootNumber
  device := 1

/-- The files with one more, made by the superuser; `mode` replaces the mode it would get. -/
def place (fs : FileSystem) (path : Bytes) (content : Content) (mode : Option Nat) : Except Errno FileSystem := do
  let fs ← match content with
    | .directory => fs.makeDir superuser usualMask rootNumber path 0o777
    | .regular bytes => fs.writeFile superuser usualMask rootNumber path false bytes
    | .link target => fs.makeLink superuser rootNumber target path
  match mode, content with
  | none, _ | _, .link _ => return fs
  | some mode, _ => fs.setMode superuser rootNumber path mode

end FileSystem

namespace Machine

def firstPid : Pid := 2000000000

/-- A machine with these files, on which the superuser has started the program. -/
def host (files : FileSystem) (environment : Environment) (workingDirectory : Bytes) : Machine where
  clock := 0
  latency := milliseconds 2
  slack := 50000
  files := files
  processes := []
  self := firstPid
  nextPid := firstPid + 1
  pipes := []
  nextPipe := 3
  credentials := FileSystem.superuser
  environment := environment
  workingDirectory := workingDirectory
  mask := FileSystem.usualMask
  out := []
  err := []
  arrived := []
  shells := []

def accounts (uid : Nat) : Option Account := if uid = 0 then some ⟨Text.toUtf8 "/root".toList, []⟩ else none

end Machine
end BucketMount
