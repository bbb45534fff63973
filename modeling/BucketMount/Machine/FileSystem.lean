import BucketMount.Credentials
import BucketMount.Environment
import BucketMount.Path

/-!
# A file system

Files, directories and symbolic links, each known by a number, with the rules by which a path is followed: a piece
at a time, at most so many links on the way, and only through directories that the caller may search.
`Lookup.missing` is the answer for a path of which only the last piece is missing, which is where something can be
created.
-/

namespace BucketMount

inductive NodeKind where
  /-- A directory with its entries and the number of its parent. -/
  | directory (entries : List (Bytes × Nat)) (parent : Nat)
  | regular (content : Bytes)
  | link (target : Bytes)
deriving DecidableEq, Repr

structure Node where
  device : Nat
  kind : NodeKind
  mode : Nat
  owner : Nat
  group : Nat
deriving DecidableEq, Repr

namespace Node

inductive Access where
  | search
  | write
  | read
deriving DecidableEq, Repr

/-- The bit of a kind of access among three. -/
def Access.bit : Access → Nat
  | search => 1
  | write => 2
  | read => 4

/-- Whether a user of these groups has access. The superuser always has it to read, write and search. -/
def allows (n : Node) (user : Nat) (groups : List Nat) (a : Access) : Bool :=
  let bits := if user = n.owner then n.mode / 64 else if n.group ∈ groups then n.mode / 8 else n.mode
  user = 0 || bits / a.bit % 2 = 1

/-- Whether a process has access by its effective user and groups. -/
def permits (n : Node) (c : Credentials) (a : Access) : Bool :=
  n.allows c.effectiveUser (c.effectiveGroup :: c.groups) a

/-- Whether a process has access by its real user and groups. -/
def permitsReal (n : Node) (c : Credentials) (a : Access) : Bool :=
  n.allows c.realUser (c.realGroup :: c.groups) a

def isDirectory (n : Node) : Bool :=
  match n.kind with
  | .directory _ _ => true
  | _ => false

end Node

structure FileSystem where
  nodes : List (Nat × Node)
  root : Nat
  /-- The device on which new files are made. -/
  device : Nat
deriving DecidableEq, Repr

inductive Lookup where
  /-- To this file. -/
  | found (id : Nat)
  /-- To an entry that this directory does not have. -/
  | missing (directory : Nat) (name : Bytes)
deriving DecidableEq, Repr

inductive Removal where
  | file
  | emptyDirectory
  | tree
deriving DecidableEq, Repr

namespace FileSystem

open PathName (slash dot pieces)

def maxName : Nat := 255

/-- The longest path, with the closing zero. -/
def maxPath : Nat := 4096

/-- The most symbolic links on the way to a file. -/
def maxLinks : Nat := 40

def node? (fs : FileSystem) (id : Nat) : Option Node := fs.nodes.lookup id

/-- Whether this file is a symbolic link, and where it leads. -/
def linkTarget? (fs : FileSystem) (id : Nat) : Option Bytes :=
  match (fs.node? id).map Node.kind with
  | some (.link target) => some target
  | _ => none

/-- Where a path starts: at the root or at a given directory. -/
def origin (fs : FileSystem) (here : Nat) (path : Bytes) : Nat := if path.head? = some slash then fs.root else here

/-- Follows the pieces of a path. A link in the last place is followed only if `follow` says so; pieces without a
character at the end do not count for that, and take no permission to search. -/
def walk (fs : FileSystem) (c : Credentials) (follow : Bool) (links here : Nat) :
    List Bytes → Except Errno Lookup
  | [] => .ok (.found here)
  | name :: rest =>
    match fs.node? here with
    | none => .error .enoent
    | some n =>
      match n.kind with
      | .regular _ | .link _ => .error .enotdir
      | .directory entries parent =>
        if name ≠ [] ∧ ¬n.permits c .search then .error .eacces
        else if name = [] ∨ name = [dot] then walk fs c follow links here rest
        else if name = [dot, dot] then walk fs c follow links parent rest
        else if maxName < name.length then .error .enametoolong
        else
          let isLast := rest.all (· = [])
          match entries.lookup name with
          | none => if isLast then .ok (.missing here name) else .error .enoent
          | some id =>
            match fs.linkTarget? id with
            | none => walk fs c follow links id rest
            | some target =>
              if isLast ∧ ¬follow then .ok (.found id)
              else
                match links with
                | 0 => .error .eloop
                | links + 1 => walk fs c follow links (fs.origin here target) (pieces target ++ rest)
termination_by path => (links, path.length)

def lookup (fs : FileSystem) (c : Credentials) (follow : Bool) (here : Nat) (path : Bytes) :
    Except Errno Lookup :=
  if Environment.nul ∈ path then .error .einval
  else if path = [] then .error .enoent
  else if maxPath ≤ path.length then .error .enametoolong
  else walk fs c follow maxLinks (fs.origin here path) (pieces path)

/-- Whether a path ends in a slash. What it leads to is then a directory. -/
def endsInSlash (path : Bytes) : Bool := path.getLast? = some slash

def resolve (fs : FileSystem) : Lookup → Except Errno (Nat × Node)
  | .missing _ _ => .error .enoent
  | .found id =>
    match fs.node? id with
    | some n => .ok (id, n)
    | none => .error .enoent

/-- The file at a path. A link in the last place is followed if `follow` says so or a slash stands after it. -/
def find (fs : FileSystem) (c : Credentials) (follow : Bool) (here : Nat) (path : Bytes) :
    Except Errno (Nat × Node) := do
  fs.resolve (← fs.lookup c (follow || endsInSlash path) here path)

/-- The file that the last piece of a path names; a link there is not followed, whatever stands after it. -/
def entry (fs : FileSystem) (c : Credentials) (here : Nat) (path : Bytes) : Except Errno (Nat × Node) := do
  fs.resolve (← fs.lookup c false here path)

def fresh (fs : FileSystem) : Nat := (fs.nodes.map Prod.fst).foldl max 0 + 1

def update (fs : FileSystem) (id : Nat) (f : Node → Node) : FileSystem :=
  { fs with nodes := fs.nodes.map fun (i, n) => if i = id then (i, f n) else (i, n) }

def Entries.change (f : List (Bytes × Nat) → List (Bytes × Nat)) (n : Node) : Node :=
  match n.kind with
  | .directory entries parent => { n with kind := .directory (f entries) parent }
  | _ => n

def insert (fs : FileSystem) (directory : Nat) (name : Bytes) (n : Node) : FileSystem :=
  let id := fs.fresh
  let changed := fs.update directory (Entries.change (· ++ [(name, id)]))
  { changed with nodes := changed.nodes ++ [(id, n)] }

def remove (fs : FileSystem) (directory id : Nat) : FileSystem :=
  let changed := fs.update directory (Entries.change (·.filter (·.2 ≠ id)))
  { changed with nodes := changed.nodes.filter (·.1 ≠ id) }

/-- The bit of a mode that hands the group of a directory down. -/
def groupBit : Nat := 0o2000

def handsGroupDown (n : Node) : Bool := n.mode / groupBit % 2 = 1

/-- The group of a new file in a directory. -/
def groupIn (c : Credentials) (p : Node) : Nat := if handsGroupDown p then p.group else c.effectiveGroup

/-- Creates an entry that a directory does not have yet. -/
def createIn (fs : FileSystem) (c : Credentials) (parent : Nat) (name : Bytes) (make : Node → Node) :
    Except Errno FileSystem :=
  match fs.node? parent with
  | none => .error .enoent
  | some p =>
    if p.device ≠ fs.device then .error .enoent
    else if ¬(p.permits c .write && p.permits c .search) then .error .eacces
    else .ok (fs.insert parent name (make p))

/-- The bits that a new directory keeps of a mode, given those that the process leaves out. -/
def directoryMode (mask mode : Nat) : Nat := mode % 0o2000 &&& (0o1777 ^^^ (mask % 0o1000))

def makeDir (fs : FileSystem) (c : Credentials) (mask here : Nat) (path : Bytes) (mode : Nat) :
    Except Errno FileSystem :=
  match fs.lookup c false here path with
  | .error e => .error e
  | .ok (.found _) => .error .eexist
  | .ok (.missing parent name) =>
    fs.createIn c parent name fun p =>
      let down := handsGroupDown p
      { device := fs.device
        kind := .directory [] parent
        mode := directoryMode mask mode + if down then groupBit else 0
        owner := c.effectiveUser
        group := groupIn c p }

def hasEntries (fs : FileSystem) (c : Credentials) (here : Nat) (path : Bytes) : Except Errno Bool := do
  let (_, n) ← fs.find c true here path
  match n.kind with
  | .directory entries _ => if n.permits c .read then .ok (!entries.isEmpty) else .error .eacces
  | _ => .error .enotdir

def canWrite (fs : FileSystem) (c : Credentials) (here : Nat) (path : Bytes) : Bool :=
  match fs.find c true here path with
  | .ok (_, n) => n.permitsReal c .write
  | .error _ => false

def content (fs : FileSystem) (c : Credentials) (here : Nat) (path : Bytes) : Except Errno Bytes := do
  let (_, n) ← fs.find c true here path
  if ¬n.permits c .read then throw .eacces
  match n.kind with
  | .regular bytes => .ok bytes
  | _ => .error .eisdir

/-- Writes a file, keeping what was in it if `keep` says so. A link that leads nowhere says where the file is made. -/
def writeFile (fs : FileSystem) (c : Credentials) (mask here : Nat) (path : Bytes) (keep : Bool) (bytes : Bytes) :
    Except Errno FileSystem := do
  match ← fs.lookup c true here path with
  | .found id =>
    let (_, n) ← fs.resolve (.found id)
    match n.kind with
    | .regular old =>
      if ¬n.permits c .write then .error .eacces
      else .ok (fs.update id fun n => { n with kind := .regular (if keep then old ++ bytes else bytes) })
    | _ => .error .eisdir
  | .missing parent name =>
    if endsInSlash path then .error .eisdir
    else
      fs.createIn c parent name fun p =>
        { device := fs.device
          kind := .regular bytes
          mode := 0o666 &&& (0o777 ^^^ (mask % 0o1000))
          owner := c.effectiveUser
          group := groupIn c p }

def setMode (fs : FileSystem) (c : Credentials) (here : Nat) (path : Bytes) (mode : Nat) :
    Except Errno FileSystem := do
  let (id, n) ← fs.find c true here path
  if c.effectiveUser ≠ 0 ∧ c.effectiveUser ≠ n.owner then throw .eperm
  return fs.update id ({ · with mode := mode })

def makeLink (fs : FileSystem) (c : Credentials) (here : Nat) (target path : Bytes) : Except Errno FileSystem := do
  match ← fs.lookup c false here path with
  | .found _ => .error .eexist
  | .missing parent name =>
    if endsInSlash path ∨ target = [] then .error .enoent
    else
      fs.createIn c parent name fun p =>
        { device := fs.device, kind := .link target, mode := 0o777, owner := c.effectiveUser, group := groupIn c p }

/-- The directory that holds a file, if one does, and the name under which it does. -/
def holder? (fs : FileSystem) (id : Nat) : Option (Nat × Bytes) :=
  fs.nodes.findSome? fun (directory, n) =>
    match n.kind with
    | .directory entries _ => (entries.find? (·.2 = id)).map fun (name, _) => (directory, name)
    | _ => none

/-- The names on the way from the root to a file, each after a slash. The first argument bounds their number. -/
def pathTo (fs : FileSystem) : Nat → Nat → Bytes
  | 0, _ => []
  | depth + 1, id =>
    match fs.holder? id with
    | none => []
    | some (directory, name) => pathTo fs depth directory ++ slash :: name

/-- The path of a file from the root, without links. -/
def realPath (fs : FileSystem) (id : Nat) : Bytes :=
  match fs.pathTo fs.nodes.length id with
  | [] => [slash]
  | path => path

def erase (fs : FileSystem) (c : Credentials) (here : Nat) (path : Bytes) (what : Removal) :
    Except Errno FileSystem := do
  let (id, n) ← if what = .emptyDirectory then fs.entry c here path else fs.find c false here path
  match n.kind, what with
  | .directory _ _, .file => throw .eisdir
  | .directory (_ :: _) _, .emptyDirectory => throw .enotempty
  | .regular _, .emptyDirectory | .link _, .emptyDirectory => throw .enotdir
  | _, _ => pure ()
  match fs.holder? id with
  | none => throw .ebusy
  | some (parent, _) =>
    match fs.node? parent with
    | some p => if p.permits c .write then .ok (fs.remove parent id) else .error .eacces
    | none => .error .enoent

/-- Whether a directory is a file itself or holds it at some depth. The first argument bounds the depth. -/
def isWithin (fs : FileSystem) (id : Nat) : Nat → Nat → Bool
  | 0, directory => directory = id
  | depth + 1, directory =>
    directory = id ||
      match fs.holder? directory with
      | some (parent, _) => fs.isWithin id depth parent
      | none => false

/-- What keeps a file from taking the place of another one. -/
def replaceFault? (moved replaced : Node) : Option Errno :=
  match moved.kind, replaced.kind with
  | .directory _ _, .directory (_ :: _) _ => some .enotempty
  | .directory _ _, .directory [] _ => none
  | .directory _ _, _ => some .enotdir
  | _, .directory _ _ => some .eisdir
  | _, _ => none

/-- A file that knows the directory which holds it. -/
def Node.heldBy (parent : Nat) (n : Node) : Node :=
  match n.kind with
  | .directory entries _ => { n with kind := .directory entries parent }
  | _ => n

/-- Gives a file another name, possibly in another directory. A file that had the name before is taken away. -/
def rename (fs : FileSystem) (c : Credentials) (here : Nat) (path target : Bytes) : Except Errno FileSystem := do
  let (id, n) ← fs.find c false here path
  let (parent, name) ← match fs.holder? id with
    | some h => .ok h
    | none => .error .ebusy
  let (directory, newName, replaced) ← match ← fs.lookup c false here target with
    | .missing directory newName => .ok (directory, newName, none)
    | .found other =>
      match fs.holder? other with
      | some (directory, newName) => .ok (directory, newName, some other)
      | none => .error .ebusy
  if replaced = some id then return fs
  if n.isDirectory ∧ fs.isWithin id fs.nodes.length directory then throw .einval
  for place in [parent, directory] do
    match fs.node? place with
    | some p => if ¬(p.permits c .write && p.permits c .search) then throw .eacces
    | none => throw .enoent
  let fs ← match replaced.bind fun other => (fs.node? other).map (other, ·) with
    | none => .ok fs
    | some (other, o) =>
      match replaceFault? n o with
      | some e => .error e
      | none => .ok (fs.remove directory other)
  let fs := fs.update parent (Entries.change (·.filter (· ≠ (name, id))))
  let fs := fs.update directory (Entries.change (· ++ [(newName, id)]))
  return fs.update id (Node.heldBy directory)

end FileSystem
end BucketMount
