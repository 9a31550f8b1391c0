import FlowGraph.CommandLine.Host

/-!
# Directories in memory

A file tree holds text files and directories by their places below one root.  Commands work in one
of its directories; two devices stand beside it, an empty one and standard input.  A path is
walked name by name: every name but the last has to lead to a directory, also where two dots lead
back out of it.
-/

namespace FlowGraph.CommandLine

/-- The names on the way from the root. -/
abbrev Place := List String

/-- What stands at a place. -/
inductive Entry where
  | directory
  | file (text : String)

/-- Text files and directories below one root. -/
structure FileTree where
  files : List (Place × String)
  directories : List Place

namespace FileTree

/-! ## Places -/

/-- The directory in which commands work. -/
def workplace : Place := ["tmp", "work"]

/-- A file that is always empty. -/
def emptyDevice : Place := ["dev", "null"]

/-- The file that stands for standard input. -/
def inputDevice : Place := ["dev", "stdin"]

/-- A tree with nothing to work on yet, and a text to be read from standard input. -/
def start (input : String) : FileTree where
  files := [(emptyDevice, ""), (inputDevice, input)]
  directories := [[], ["dev"], ["tmp"], workplace]

/-- What stands at a place, if anything. -/
def entry? (t : FileTree) (place : Place) : Option Entry :=
  match t.files.lookup place with
  | some text => some (.file text)
  | none => if t.directories.contains place then some .directory else none

/-- Put a text at a place. -/
def put (t : FileTree) (place : Place) (text : String) : FileTree :=
  { t with files := (t.files.filter fun entry => entry.1 != place) ++ [(place, text)] }

/-- Put a file into the workplace, with the directories it needs. -/
def supply (t : FileTree) (path : String) (text : String) : FileTree :=
  let place := workplace ++ pathNames path
  let ways := (List.range place.length).map place.take
  let missing := ways.filter fun way => !t.directories.contains way
  { t with directories := t.directories ++ missing }.put place text

/-- The files in the workplace that an earlier tree does not have, in ascending order of their
paths from there. -/
def addedSince (t earlier : FileTree) : List (String × String) :=
  let fresh := t.files.filter fun entry =>
    workplace.isPrefixOf entry.1 && (earlier.files.lookup entry.1).isNone
  (fresh.map fun entry => ("/".intercalate (entry.1.drop workplace.length), entry.2)).mergeSort
    fun a b => decide (a.1 ≤ b.1)

/-! ## Walking a path -/

/-- The bytes that a path may have. -/
def pathLimit : Nat := 4095

/-- The bytes that a name may have. -/
def nameLimit : Nat := 255

/-- Go from a place to the one that a name leads to; something has to stand only where one goes
on from. -/
def step (t : FileTree) (place : Place) (name : String) : Except FileFault Place :=
  match t.entry? place with
  | none => .error .notFound
  | some (.file _) => .error .notDirectory
  | some .directory =>
    if name = "." then .ok place
    else if name = ".." then .ok place.dropLast
    else if nameLimit < name.utf8ByteSize then .error .nameTooLong
    else .ok (place ++ [name])

/-- The place that a path leads to, whether or not something stands there. -/
def walk (t : FileTree) (path : String) : Except FileFault Place :=
  if path.isEmpty then .error .notFound
  else if pathLimit < path.utf8ByteSize then .error .nameTooLong
  else (pathNames path).foldlM t.step (if path.startsWith "/" then [] else workplace)

/-! ## Operations -/

/-- Read the file that a path leads to; a slash at its end asks for a directory.  Standard input
is read once. -/
def read (t : FileTree) (path : String) : Except FileFault (String × FileTree) := do
  let place ← t.walk path
  match t.entry? place with
  | none => .error .notFound
  | some .directory => .error .isDirectory
  | some (.file text) =>
    if path.endsWith "/" then .error .notDirectory
    else return (text, if place = inputDevice then t.put place "" else t)

/-- Make the directory that a path leads to. -/
def makeDirectory (t : FileTree) (path : String) : Except FileFault FileTree := do
  let place ← t.walk path
  match t.entry? place with
  | some _ => .error .exists
  | none => return { t with directories := t.directories ++ [place] }

/-- Whether a path leads to a directory. -/
def isDirectory (t : FileTree) (path : String) : Bool :=
  match t.walk path with
  | .ok place => t.directories.contains place
  | .error _ => false

/-- Write the file that a path leads to. -/
def write (t : FileTree) (path : String) (text : String) : Except FileFault FileTree := do
  let place ← t.walk path
  match t.entry? place, t.entry? place.dropLast with
  | some .directory, _ => .error .isDirectory
  | _, none => .error .notFound
  | _, some (.file _) => .error .notDirectory
  | _, some .directory => return t.put place text

/-- Act on the tree at hand; it stays as it is when that fails. -/
def act {α : Type} (f : FileTree → Except FileFault (α × FileTree)) :
    StateM FileTree (Except FileFault α) := do
  match f (← get) with
  | .ok (answer, t) => set t; return .ok answer
  | .error fault => return .error fault

/-- A tree as a host, with a fixed run label; time passes at once. -/
def host (label : RunLabel) : Host (StateM FileTree) where
  readFile path := act fun t => t.read path
  readInput := act fun t => t.read "/dev/stdin"
  makeDirectory path := act fun t => ((), ·) <$> t.makeDirectory path
  isDirectory path := return (← get).isDirectory path
  writeFile path text := act fun t => ((), ·) <$> t.write path text
  labelRun := return label
  passTime _ := return ()

end FileTree

end FlowGraph.CommandLine
