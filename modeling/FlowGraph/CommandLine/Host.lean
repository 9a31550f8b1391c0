import FlowGraph.Text.Split

/-!
# What commands ask of their host

A host keeps files, hands over standard input and lets time pass.  Commands are written against
any host, so they run on a disk and in memory alike.  A host makes one directory at a time; making
one with those above it is the same everywhere.

Current gaps:

- Rights, links between files and full disks are known only by the fault that they lead to.
-/

namespace FlowGraph.CommandLine

/-- Why a file operation fails. -/
inductive FileFault where
  | notFound
  | notDirectory
  | isDirectory
  | exists
  | nameTooLong
  | notText
  /-- Any other fault, in the host's words. -/
  | other (message : String)
deriving DecidableEq

namespace FileFault

/-- The fault in words. -/
def message : FileFault → String
  | .notFound => "No such file or directory (os error 2)"
  | .notDirectory => "Not a directory (os error 20)"
  | .isDirectory => "Is a directory (os error 21)"
  | .exists => "File exists (os error 17)"
  | .nameTooLong => "File name too long (os error 36)"
  | .notText => "stream did not contain valid UTF-8"
  | .other message => message

end FileFault

/-- What tells a run from others: its id, and the written form of an instant some milliseconds
after its start. -/
structure RunLabel where
  id : String
  stamp : Nat → String

/-- The operations of a host. -/
structure Host (m : Type → Type) where
  readFile : String → m (Except FileFault String)
  /-- All of standard input; nothing when it is a terminal. -/
  readInput : m (Except FileFault String)
  /-- Make a directory in one that exists. -/
  makeDirectory : String → m (Except FileFault Unit)
  /-- Whether a path leads to a directory. -/
  isDirectory : String → m Bool
  /-- Write a file, over an older one if there is one. -/
  writeFile : String → String → m (Except FileFault Unit)
  labelRun : m RunLabel
  /-- Let some milliseconds pass. -/
  passTime : Nat → m Unit

/-! ## Paths -/

/-- The names in a path, without those between two slashes in a row. -/
def pathNames (path : String) : List String :=
  (Text.words (· = '/') path.toList).map String.ofList

/-- A path below a directory. -/
def joinPath (directory path : String) : String :=
  if directory.endsWith "/" then directory ++ path else directory ++ "/" ++ path

/-- The paths above a path, nearest first: each without the last name of the one below it, down to
a single name.  A dot is a name only where a relative path begins with it. -/
def pathsAbove (path : String) : List String :=
  let root := if path.startsWith "/" then "/" else ""
  let names :=
    match pathNames path with
    | [] => []
    | first :: rest =>
      let rest := rest.filter (· ≠ ".")
      if first = "." ∧ root ≠ "" then rest else first :: rest
  let lengths := (List.range (names.length - 1)).reverse
  lengths.map fun length => root ++ "/".intercalate (names.take (length + 1))

/-! ## Directories -/

namespace Host

variable {m : Type → Type} [Monad m]

/-- Make the first directory of a list, in which every path is followed by the one above it.  The
one above is made only when it is found missing, and a directory that exists is no fault. -/
def makeFirst (h : Host m) : List String → m (Except FileFault Unit)
  | [] => return .ok ()
  | path :: above => do
    let accept (made : Except FileFault Unit) : m (Except FileFault Unit) := do
      match made with
      | .ok () => return .ok ()
      | .error fault => if ← h.isDirectory path then return .ok () else return .error fault
    match ← h.makeDirectory path with
    | .error .notFound => do
      match ← h.makeFirst above with
      | .ok () => accept (← h.makeDirectory path)
      | .error fault => return .error fault
    | made => accept made

/-- Make a directory and those above it, unless they exist. -/
def makeDirectories (h : Host m) (path : String) : m (Except FileFault Unit) :=
  h.makeFirst (path :: pathsAbove path)

end Host

end FlowGraph.CommandLine
