import BucketMount.Machine.Condition
import BucketMount.Machine.Filter
import BucketMount.Machine.Format
import BucketMount.Machine.Task

/-!
# The tools of a system

The usual small programs: those that change files, those that tell about them, and filters. A tool says on the error
output what it could not do with an operand, goes on with the next one, and ends with the status 1.
-/

namespace BucketMount

structure Options where
  flags : List Char
  values : List (Char × Text)
  long : List Text
  operands : List Text

namespace Options

/-- Sorts the letters after a dash into flags and values, which are the rest of the letters or else the next
argument. -/
def readLetters (valued : List Char) (next : List Text) (o : Options) : Text → Options × List Text
  | [] => (o, next)
  | c :: rest =>
    if c ∈ valued then
      if rest = [] then ({ o with values := o.values ++ [(c, next.headD [])] }, next.drop 1)
      else ({ o with values := o.values ++ [(c, rest)] }, next)
    else readLetters valued next { o with flags := o.flags ++ [c] } rest

def readAll (valued : List Char) : Nat → Options → List Text → Options
  | 0, o, _ | _, o, [] => o
  | fuel + 1, o, a :: rest =>
    match a with
    | ['-', '-'] => { o with operands := o.operands ++ rest }
    | '-' :: '-' :: name => readAll valued fuel { o with long := o.long ++ [name] } rest
    | '-' :: c :: letters =>
      let (o, rest) := readLetters valued rest o (c :: letters)
      readAll valued fuel o rest
    | a => readAll valued fuel { o with operands := o.operands ++ [a] } rest

/-- The arguments of a tool by their roles, given the letters that a value follows. -/
def read (valued : String) (arguments : List Text) : Options :=
  readAll valued.toList (arguments.length + 1) ⟨[], [], [], []⟩ arguments

def has (o : Options) (letter : Char) : Bool := letter ∈ o.flags

def hasNamed (o : Options) (letter : Char) (name : String) : Bool := o.has letter || o.long.contains name.toList

def value? (o : Options) (letter : Char) : Option Text := o.values.lookup letter

end Options

namespace Task

def complaint (what operand : Text) (e : Errno) : Text :=
  what ++ " '".toList ++ operand ++ "': ".toList ++ e.libraryText

def change (t : Task) (what : String) (operand : Text) (r : Except Errno FileSystem) : Task :=
  match r with
  | .ok files => t.onMachine fun m => { m with files := files }
  | .error e => (t.complain (complaint what.toList operand e)).withStatus 1

def fail (t : Task) (path : Text) (e : Errno) : Task :=
  (t.complain (t.name ++ ": ".toList ++ path ++ ": ".toList ++ e.libraryText)).withStatus 1

/-- Changes for each of the operands; the status tells whether all of them succeeded. -/
def changeAll (t : Task) (what : String) (operands : List Text)
    (f : Machine → Bytes → Except Errno FileSystem) : Task :=
  operands.foldl
    (fun t operand => t.change what operand (f t.machine (Text.toUtf8 operand)))
    (t.withStatus (if operands = [] then 1 else 0))

/-- A change that is no fault where there is nothing to change. -/
def unlessMissing (m : Machine) : Except Errno FileSystem → Except Errno FileSystem
  | .error .enoent | .error .enotdir => .ok m.files
  | r => r

def lastPiece (path : Text) : Text :=
  match ((path.splitOn '/').filter (· ≠ [])).getLast? with
  | some piece => piece
  | none => if path = [] then [] else ['/']

def directoryOf (path : Text) : Text :=
  let trimmed := Text.trimEnd '/' path
  match Text.trimEnd '/' ((trimmed.reverse.dropWhile (· ≠ '/')).reverse) with
  | [] => if path.head? = some '/' then ['/'] else ['.']
  | directory => directory

/-- Where something goes that is sent to a place: under its own name into a directory, or to the place itself. -/
def destination (t : Task) (source place : Text) : Text :=
  match t.find true place with
  | .ok (_, n) => if n.isDirectory then Text.trimEnd '/' place ++ '/' :: lastPiece source else place
  | .error _ => place

/-- The operands that something is done with, and where they go. -/
def sources (o : Options) : List Text × Option Text :=
  match o.value? 't' with
  | some place => (o.operands, some place)
  | none => (o.operands.dropLast, if o.operands.length < 2 then none else o.operands.getLast?)

def transferAll (t : Task) (o : Options) (what : String)
    (f : Machine → Bytes → Bytes → Except Errno FileSystem) : Task :=
  match sources o with
  | (operands, some place) =>
    operands.foldl
      (fun t operand =>
        match t.find false operand with
        | .error e => (t.complain (complaint (t.name ++ ": cannot stat".toList) operand e)).withStatus 1
        | .ok _ =>
          t.change what operand (f t.machine (Text.toUtf8 operand) (Text.toUtf8 (t.destination operand place))))
      (t.withStatus 0)
  | _ => t.withStatus 1

def copyFile (c : Credentials) (m : Machine) (source target : Bytes) : Except Errno FileSystem := do
  let (_, n) ← m.files.find c true m.here source
  let bytes ← m.files.content c m.here source
  let isNew := (m.files.find c true m.here target).toOption.isNone
  let files ← m.files.writeFile c m.mask m.here target false bytes
  if isNew then files.setMode c m.here target (n.mode &&& (0o777 ^^^ (m.mask % 0o1000))) else .ok files

def linkTo (c : Credentials) (force : Bool) (m : Machine) (target path : Bytes) : Except Errno FileSystem :=
  let files := if force then ((m.files.erase c m.here path .file).toOption).getD m.files else m.files
  files.makeLink c m.here target path

/-- The mode that a text asks for, given the one there is: octal digits, or letters with what they gain or lose. -/
def modeAfter? (mode : Nat) (t : Text) : Option Nat :=
  match Text.readOctal t with
  | some mode => some mode
  | none =>
    (t.splitOn ',').foldlM
      (fun mode clause =>
        let who := clause.takeWhile (· ∈ ['u', 'g', 'o', 'a'])
        let all := who = [] || 'a' ∈ who
        let places := (if all || 'u' ∈ who then 0o700 else 0) ||| (if all || 'g' ∈ who then 0o070 else 0) |||
          (if all || 'o' ∈ who then 0o007 else 0)
        match clause.drop who.length with
        | sign :: letters =>
          let bits := letters.foldl
            (fun n c => n ||| (if c = 'r' then 0o444 else if c = 'w' then 0o222 else if c = 'x' then 0o111 else 0)) 0
          let bits := bits &&& places
          if sign = '+' then some (mode ||| bits)
          else if sign = '-' then some (mode &&& (0o7777 ^^^ bits))
          else if sign = '=' then some ((mode &&& (0o7777 ^^^ places)) ||| bits)
          else none
        | [] => none)
      mode

def changingTool (t : Task) (name : String) (arguments : List Text) : Option Task :=
  let c := t.caller
  let o := Options.read (if name = "mkdir" then "m" else if name = "mv" ∨ name = "cp" then "t" else "") arguments
  match name with
  | "rm" =>
    let kind := if o.hasNamed 'r' "recursive" ∨ o.has 'R' then Removal.tree else .file
    let force := o.hasNamed 'f' "force"
    let t := t.changeAll "rm: cannot remove" o.operands fun m p =>
      let r := m.files.erase c m.here p kind
      if force then unlessMissing m r else r
    some (if force ∧ o.operands = [] then t.withStatus 0 else t)
  | "unlink" => some (t.changeAll "unlink: cannot unlink" o.operands fun m p => m.files.erase c m.here p .file)
  | "rmdir" =>
    some (t.changeAll "rmdir: failed to remove" o.operands fun m p => m.files.erase c m.here p .emptyDirectory)
  | "chmod" =>
    match arguments.filter (¬['-', 'R'].isPrefixOf ·) with
    | mode :: operands =>
      some (t.changeAll "chmod: cannot access" operands fun m p => do
        let (_, n) ← m.files.find c true m.here p
        match modeAfter? n.mode mode with
        | some mode => m.files.setMode c m.here p mode
        | none => throw .einval)
    | [] => some (t.withStatus 1)
  | "mkdir" =>
    let mode := ((o.value? 'm').bind Text.readOctal).getD 0o777
    let parents (path : Text) : List Text :=
      if o.hasNamed 'p' "parents" then
        let pieces := (path.splitOn '/').filter (· ≠ [])
        let start : Text := if path.head? = some '/' then ['/'] else []
        (List.range pieces.length).map fun i => start ++ ['/'].intercalate (pieces.take (i + 1))
      else [path]
    some (t.changeAll "mkdir: cannot create directory" (o.operands.flatMap parents) fun m p =>
      match m.files.makeDir c m.mask m.here p mode with
      | .error .eexist =>
        if o.hasNamed 'p' "parents" then
          match m.files.find c true m.here p with
          | .ok (_, n) => if n.isDirectory then .ok m.files else .error .eexist
          | .error e => .error e
        else .error .eexist
      | r => r)
  | "touch" =>
    some (t.changeAll "touch: cannot touch" o.operands fun m p =>
      match m.files.find c true m.here p with
      | .ok _ => .ok m.files
      | .error _ => m.files.writeFile c m.mask m.here p true [])
  | "ln" =>
    match o.operands with
    | [target, path] =>
      let path := if o.has 'n' ∨ o.has 'T' then path else t.destination target path
      let m := t.machine
      some ((t.withStatus 0).change "ln: failed to create symbolic link" path
        (linkTo c (o.hasNamed 'f' "force") m (Text.toUtf8 target) (Text.toUtf8 path)))
    | _ => some (t.withStatus 1)
  | "mv" => some (t.transferAll o "mv: cannot move" fun m source target => m.files.rename c m.here source target)
  | "cp" => some (t.transferAll o "cp: cannot copy" (copyFile c))
  | _ => none

/-- The texts of the files at some paths one after the other; without a path, and for a dash, the input. -/
def texts (t : Task) (paths : List Text) : Text × Task :=
  let add : Bytes × Task → Text → Bytes × Task := fun (bytes, t) path =>
    if path = ['-'] then
      let (more, t) := t.drain
      (bytes ++ more, t)
    else
      match t.content path with
      | .ok more => (bytes ++ more, t)
      | .error e => (bytes, t.fail path e)
  let (bytes, t) := (if paths = [] then [['-']] else paths).foldl add ([], t.withStatus 0)
  (Text.ofUtf8Lossy bytes, t)

def filtered (t : Task) (paths : List Text) (f : Text → Text) : Task :=
  let (text, t) := t.texts paths
  t.emit 1 (f text)

def filteredLines (t : Task) (paths : List Text) (f : List Text → List Text) : Task :=
  t.filtered paths fun text => Filter.unlines (f (Filter.lines text))

/-- Looks for lines that fit a pattern. The status tells whether there are some. -/
def grep (t : Task) (arguments : List Text) : Task :=
  let o := Options.read "e" arguments
  let (pattern, paths) := match o.value? 'e' with
    | some p => (p, o.operands)
    | none => (o.operands.headD [], o.operands.drop 1)
  let lower (s : Text) : Text := if o.has 'i' then s.map Char.toLower else s
  let p := if o.has 'F' then LinePattern.ofText (lower pattern) else LinePattern.read (o.has 'E') (lower pattern)
  let fits (line : Text) : Bool :=
    let found := match p.find? (lower line) with
      | none => false
      | some (i, n) => !o.has 'x' || (i = 0 && n = line.length)
    found != o.has 'v'
  let (text, t) := t.texts paths
  let found := (Filter.lines text).filter fits
  let t' := if o.has 'q' then t
    else if o.has 'c' then t.say (Text.decimal found.length)
    else t.emit 1 (Filter.unlines found)
  if t.status ≠ 0 then t'.withStatus 2 else t'.withStatus (ofBool (found ≠ []))

def filterTool (t : Task) (name : String) (arguments : List Text) : Option Task :=
  match name with
  | "cat" => some (t.filtered (Options.read "" arguments).operands id)
  | "head" =>
    let o := Options.read "nc" arguments
    match (o.value? 'c').bind Text.readDecimal with
    | some n => some (t.filtered o.operands (·.take n))
    | none => some (t.filteredLines o.operands (·.take (((o.value? 'n').bind Text.readDecimal).getD 10)))
  | "tail" =>
    let o := Options.read "nc" arguments
    let count (v : Option Text) (length : Nat) : Nat :=
      match v with
      | some ('+' :: n) => (Text.readDecimal n).getD 1 - 1
      | some n => length - (Text.readDecimal n).getD 10
      | none => length - 10
    match o.value? 'c' with
    | some n => some (t.filtered o.operands fun s => s.drop (count (some n) s.length))
    | none => some (t.filteredLines o.operands fun l => l.drop (count (o.value? 'n') l.length))
  | "wc" =>
    let o := Options.read "" arguments
    let (text, t) := t.texts o.operands
    let words := (text.splitOnP fun c => c = ' ' || c = '\t' || c = '\n').countP (· ≠ [])
    let numbers := [('l', text.count '\n'), ('w', words), ('c', (Text.toUtf8 text).length)].filter fun (c, _) =>
      o.flags = [] || c ∈ o.flags
    some (t.say ([' '].intercalate (numbers.map fun (_, n) => Text.decimal n)))
  | "sort" =>
    let o := Options.read "kt" arguments
    some (t.filteredLines o.operands (Filter.sorted (o.has 'n') (o.has 'r') (o.has 'u')))
  | "uniq" =>
    let o := Options.read "" arguments
    let pad (n : Nat) : Text := List.replicate (7 - (Text.decimal n).length) ' ' ++ Text.decimal n ++ [' ']
    some (t.filteredLines o.operands fun l =>
      ((Filter.counted l).filter fun (n, _) => !o.has 'd' || 1 < n).map fun (n, s) =>
        if o.has 'c' then pad n ++ s else s)
  | "tr" =>
    let o := Options.read "" arguments
    let set := Filter.charSet (o.operands.headD [])
    let other := Filter.charSet ((o.operands[1]?).getD [])
    some (t.filtered [] fun s =>
      if o.has 'd' then s.filter (· ∉ set)
      else if o.has 's' ∧ other = [] then Filter.squeezed set s
      else
        let s := Filter.translated set other s
        if o.has 's' then Filter.squeezed other s else s)
  | "cut" =>
    let o := Options.read "dfcb" arguments
    let separator := ((o.value? 'd').getD []).headD '\t'
    match o.value? 'f', (o.value? 'c').or (o.value? 'b') with
    | some list, _ => some (t.filteredLines o.operands (·.map (Filter.fields separator list)))
    | none, some list => some (t.filteredLines o.operands (·.map (Filter.listed list)))
    | none, none => some (t.withStatus 1)
  | "sed" =>
    let o := Options.read "e" arguments
    let (commands, paths) :=
      match o.values.filterMap fun (c, v) => if c = 'e' then some v else none with
      | [] => (o.operands.take 1, o.operands.drop 1)
      | commands => (commands, o.operands)
    let (text, t) := t.texts paths
    let extended := o.has 'E' || o.has 'r'
    let edit (line : Text) : Option Text := commands.foldlM (fun s command => Filter.edited extended command s) line
    match (Filter.lines text).mapM edit with
    | some l => some (t.emit 1 (Filter.unlines l))
    | none => some (t.withStatus 1)
  | "grep" => some (t.grep arguments)
  | "tee" =>
    let o := Options.read "" arguments
    let (bytes, t) := t.drain
    let t := o.operands.foldl
      (fun t path =>
        match t.openToWrite path (o.has 'a') with
        | .ok (stream, t) => t.emitBytes stream bytes
        | .error e => t.fail path e)
      (t.withStatus 0)
    some (t.emitBytes (t.streams.get 1) bytes)
  | _ => none

/-- A length of time in seconds or in the unit of the letter after it, with a fraction or without. -/
def duration? (t : Text) : Option Duration := do
  let (unit, digits) := match t.getLast? with
    | some 's' => (1, t.dropLast)
    | some 'm' => (60, t.dropLast)
    | some 'h' => (3600, t.dropLast)
    | some 'd' => (86400, t.dropLast)
    | _ => (1, t)
  match Text.splitOnce '.' digits with
  | none => return milliseconds (unit * 1000 * (← Text.readDecimal digits))
  | some (whole, fraction) =>
    let n ← if whole = [] ∧ fraction ≠ [] then some 0 else Text.readDecimal whole
    let _ ← Text.readDecimal ('0' :: fraction)
    return milliseconds (unit * (1000 * n + (Text.readDecimal ((fraction ++ ['0', '0', '0']).take 3)).getD 0))

def namesIn (n : Node) : List Text :=
  match n.kind with
  | .directory entries _ => (entries.map fun (name, _) => Text.ofUtf8Lossy name).mergeSort Filter.isBefore
  | _ => []

def tellingTool (t : Task) (name : String) (arguments : List Text) : Option Task :=
  let o := Options.read "" arguments
  let done := t.withStatus 0
  match name with
  | "true" => some done
  | "false" => some (t.withStatus 1)
  | "echo" =>
    match arguments with
    | ['-', 'n'] :: arguments => some (done.emit 1 ([' '].intercalate arguments))
    | ['-', 'e'] :: arguments => some (done.say (Format.unmarked ([' '].intercalate arguments)).1)
    | arguments => some (done.say ([' '].intercalate arguments))
  | "printf" =>
    match arguments with
    | format :: arguments =>
      let (text, faults) := Format.apply format arguments
      let t := faults.foldl (fun t fault => t.complain (t.name ++ ": ".toList ++ fault)) (t.emit 1 text)
      some (t.withStatus (ofBool (faults = [])))
    | [] => some (t.withStatus 1)
  | "test" | "[" =>
    let words := if name = "[" then arguments.dropLast else arguments
    if name = "[" ∧ arguments.getLast? ≠ some [']'] then
      some ((t.complain (t.name ++ ": missing ]".toList)).withStatus 2)
    else
      match Condition.holds t words with
      | .ok b => some (t.withStatus (ofBool b))
      | .error reason => some ((t.complain (t.name ++ ": ".toList ++ reason)).withStatus 2)
  | "pwd" => some (done.say (Text.ofUtf8Lossy t.machine.workingPath))
  | "sleep" =>
    match arguments.mapM duration? with
    | some (d :: ds) => some (done.onMachine (·.pass (ds.foldl (· + ·) d)))
    | _ => some ((t.complain "sleep: invalid time interval".toList).withStatus 1)
  | "id" =>
    let c := t.caller
    if o.has 'u' then some (done.say (Text.decimal (if o.has 'r' then c.realUser else c.effectiveUser)))
    else if o.has 'g' then some (done.say (Text.decimal (if o.has 'r' then c.realGroup else c.effectiveGroup)))
    else if o.has 'G' then
      some (done.say ([' '].intercalate ((c.effectiveGroup :: c.groups).eraseDups.map Text.decimal)))
    else some done
  | "basename" =>
    match o.operands with
    | [path] => some (done.say (lastPiece path))
    | [path, ending] =>
      let piece := lastPiece path
      let short := piece.take (piece.length - ending.length)
      some (done.say (if short ≠ [] ∧ short ++ ending = piece then short else piece))
    | _ => some (t.withStatus 1)
  | "dirname" => some (o.operands.foldl (fun t path => t.say (directoryOf path)) done)
  | "readlink" =>
    match o.operands with
    | [path] =>
      match t.find (o.has 'f') path with
      | .ok (id, n) =>
        match n.kind with
        | .link target => some (done.say (Text.ofUtf8Lossy target))
        | _ =>
          if o.has 'f' then some (done.say (Text.ofUtf8Lossy (t.machine.files.realPath id)))
          else some (t.withStatus 1)
      | .error _ => some (t.withStatus 1)
    | _ => some (t.withStatus 1)
  | "seq" =>
    let number (i : Nat) : Int := ((arguments[i]?).bind Arithmetic.integer?).elim 0 Int64.toInt
    let (first, step, last) := match arguments.length with
      | 1 => (1, 1, number 0)
      | 2 => (number 0, 1, number 1)
      | _ => (number 0, number 1, number 2)
    let count := if step = 0 then 0 else ((last - first) / step + 1).toNat
    let shown (i : Nat) : Text :=
      let n := first + step * i
      if n < 0 then '-' :: Text.decimal n.natAbs else Text.decimal n.natAbs
    some (done.emit 1 (Filter.unlines ((List.range (min count 100000)).map shown)))
  | "ls" =>
    let paths := if o.operands = [] then [['.']] else o.operands
    some (paths.foldl
      (fun t path =>
        match t.find (¬o.has 'd') path with
        | .ok (_, n) =>
          if n.isDirectory ∧ ¬o.has 'd' then
            let names := (namesIn n).filter fun name => o.has 'a' || o.has 'A' || name.head? ≠ some '.'
            t.emit 1 (Filter.unlines names)
          else t.say path
        | .error e => (t.complain (complaint "ls: cannot access".toList path e)).withStatus 2)
      done)
  | "printenv" =>
    let shown (name : Text) : Option Text := (t.machine.environment.get? (Text.toUtf8 name)).map Text.ofUtf8Lossy
    some (o.operands.foldl
      (fun t name =>
        match shown name with
        | some v => t.say v
        | none => t.withStatus 1)
      done)
  | _ => none

def tool (t : Task) (name : String) (arguments : List Text) : Option Task :=
  ((t.changingTool name arguments).or (t.filterTool name arguments)).or (t.tellingTool name arguments)

def toolNames : List String :=
  ["rm", "unlink", "rmdir", "chmod", "mkdir", "touch", "ln", "mv", "cp", "cat", "head", "tail", "wc", "sort",
    "uniq", "tr", "cut", "sed", "grep", "tee", "true", "false", "echo", "printf", "test", "[", "pwd", "sleep",
    "id", "basename", "dirname", "readlink", "seq", "ls", "printenv"]

end Task
end BucketMount
