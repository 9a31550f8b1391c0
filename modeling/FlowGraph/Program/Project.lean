import FlowGraph.Program.Plan
import FlowGraph.Program.Snippet

/-!
# Generated projects

A project is a set of text files, with the node types that got a placeholder.  Both targets draw
the functions of a plan, their imports and their requirements from the same library.

Current gaps:

- The files are lists of lines; a language of templates and its faults are left out.
- Writing a project into a directory belongs to the command line.
-/

namespace FlowGraph.Program

/-- How a generated program is called and described. -/
structure Metadata where
  name : String
  description : String
  taskQueue : Option String := none

namespace Metadata

/-- The name and the description of a workflow. -/
def ofWorkflow (w : Workflow) : Metadata := { name := w.name, description := w.description }

/-- The identifier of the program. -/
def identifier (m : Metadata) : String := workflowIdentifier m.name

/-- The task queue: the identifier unless one is given. -/
def queue (m : Metadata) : String := m.taskQueue.getD m.identifier

/-- The name on one line. -/
def title (m : Metadata) : String :=
  comment (if m.name.isEmpty then "Twiddle Workflow" else m.name)

/-- The name and the description as the first lines of a docstring. -/
def docstringLines (m : Metadata) : List String :=
  docstring m.name :: if m.description.isEmpty then [] else ["", docstring m.description]

/-- The title and the description as the first lines of a document. -/
def headingLines (m : Metadata) : List String :=
  ("# " ++ m.title) :: if m.description.isEmpty then [] else ["", m.description]

end Metadata

/-! ## Functions -/

/-- A function of a program with its body; without a snippet it is a placeholder. -/
structure ActivityCode where
  ref : ActivityRef
  snippet : Option Snippet

namespace ActivityCode

/-- The code of a function, from the library. -/
def ofRef (ref : ActivityRef) : ActivityCode := ⟨ref, Snippet.ofType? ref.typeTag⟩

/-- Whether the function has no implementation yet. -/
def isPlaceholder (a : ActivityCode) : Bool := a.snippet.isNone

/-- The docstring of the function. -/
def doc (a : ActivityCode) : String :=
  docstring <|
    if a.isPlaceholder then
      "PLACEHOLDER for " ++ a.ref.typeTag ++ " nodes: no implementation is registered."
    else "Activity for " ++ a.ref.typeTag ++ " nodes."

/-- The body of the function. -/
def body (a : ActivityCode) : List String := (a.snippet.getD .placeholder).body

/-- The import lines of the function. -/
def imports (a : ActivityCode) : List String := (a.snippet.getD .placeholder).imports

/-- The requirement lines of the function. -/
def requirements (a : ActivityCode) : List String := (a.snippet.getD .placeholder).requirements

/-- The note after a function that has no implementation yet. -/
def placeholderNote (a : ActivityCode) : String :=
  if a.isPlaceholder then " (placeholder: implement before use)" else ""

/-- The definition of the function. -/
def definitionLines (a : ActivityCode) : List String :=
  ["async def " ++ a.ref.function ++ "(input: ActivityInput) -> Any:",
   "    \"\"\"" ++ a.doc ++ "\"\"\""] ++ a.body

end ActivityCode

/-- The functions of a plan. -/
def Plan.code (p : Plan) : List ActivityCode := p.activities.map .ofRef

/-- The node types of functions without an implementation, in order of first use. -/
def placeholderTypes (code : List ActivityCode) : List String :=
  (code.filter ActivityCode.isPlaceholder).map (·.ref.typeTag)

/-- Distinct texts in ascending order. -/
def sortedDistinct (texts : List String) : List String :=
  texts.eraseDups.mergeSort fun a b => decide (a ≤ b)

/-- The import lines of all functions in one module. -/
def mergedImports (code : List ActivityCode) : List String :=
  sortedDistinct ("import os" :: code.flatMap ActivityCode.imports)

/-- Requirement lines: those of the target, then what the functions need beside them. -/
def requirementLines (base : List String) (code : List ActivityCode) : List String :=
  let extra :=
    (sortedDistinct (code.flatMap ActivityCode.requirements)).filter (!base.contains ·)
  base ++ if extra.isEmpty then [] else "# Activity dependencies" :: extra

/-- A number of seconds as a duration expression. -/
def duration (seconds : UInt64) : String :=
  "timedelta(seconds=" ++ toString seconds.toNat ++ ")"

/-! ## Files -/

/-- A generated file. -/
structure SourceFile where
  path : String
  lines : List String

/-- The text of a file. -/
def SourceFile.text (f : SourceFile) : String := textOfLines f.lines

/-- A generated project. -/
structure Project where
  /-- Files in ascending order of their paths. -/
  files : List SourceFile
  placeholders : List String

namespace Project

/-- A project of some files and functions. -/
def ofFiles (files : List SourceFile) (code : List ActivityCode) : Project where
  files := files.mergeSort fun a b => decide (a.path ≤ b.path)
  placeholders := placeholderTypes code

/-- The file of a path. -/
def file? (p : Project) (path : String) : Option SourceFile :=
  p.files.find? fun f => f.path = path

/-- A project has the files it was made of. -/
theorem files_ofFiles_perm (files : List SourceFile) (code : List ActivityCode) :
    (ofFiles files code).files.Perm files :=
  List.mergeSort_perm ..

end Project

end FlowGraph.Program
