import FlowGraph.CommandLine.Answer
import FlowGraph.CommandLine.Arguments
import FlowGraph.CommandLine.Host
import FlowGraph.CommandLine.Report
import FlowGraph.Json.Parser
import FlowGraph.Program.Airflow.Project
import FlowGraph.Program.Temporal.Project
import FlowGraph.Text.Blank

/-!
# Commands

Every command reads one workflow file.  `validate` reports on it, `run` runs it with the built-in
handlers, and `generate` writes a project made from it.
-/

namespace FlowGraph.CommandLine

variable {m : Type → Type} [Monad m]

/-- Steps that may fail. -/
abbrev Attempt (m : Type → Type) := ExceptT Failure m

/-- Go on with a result, or fail with a message and the cause. -/
def orFail {ε α : Type} (message : String) (cause : ε → String) : Except ε α → Attempt m α
  | .ok a => pure a
  | .error e => throw ⟨message, [cause e]⟩

/-! ## Reading -/

/-- Read the document in a file. -/
def readDocument (h : Host m) (file : String) : Attempt m Json := do
  let text ← orFail ("failed to read workflow file: " ++ file) FileFault.message
    (← h.readFile file)
  orFail ("failed to parse workflow file: " ++ file) JsonFault.message (Json.parse text)

/-- Read the workflow in a file. -/
def readWorkflow (h : Host m) (file : String) : Attempt m Workflow := do
  let document ← readDocument h file
  orFail ("invalid workflow: " ++ file) Violation.report (Workflow.ofDocument document)

/-- Read the payload from the command line or else from standard input, where nothing but blanks
stands for the default payload. -/
def readPayload (h : Host m) (given : Option String) : Attempt m Json :=
  match given with
  | some text => orFail "failed to parse --input JSON" JsonFault.message (Json.parse text)
  | none => do
    let text ← orFail "failed to read payload from stdin" FileFault.message (← h.readInput)
    if Text.allBlank text then return defaultInput
    else orFail "failed to parse payload JSON from stdin" JsonFault.message (Json.parse text)

/-! ## The commands -/

/-- Report on a workflow file. -/
def validate (h : Host m) (file : String) (format : ReportFormat) : Attempt m Answer := do
  let report := ValidationReport.ofDocument (← readDocument h file)
  let text := match format with
    | .text => report.text
    | .json => report.toJson.indented
  if report.isValid then return .success (text ++ "\n") ""
  else return .failure (text ++ "\n") ⟨"workflow is invalid: " ++ file, []⟩

/-- The clock of a host that has been going for a day. -/
def hostClock : Clock := .upFor 86400

/-- The longest wait for a run: as long as the clock counts. -/
def runPatienceMs : Nat := hostClock.limit * millisPerSecond

/-- Run a workflow to its end. -/
def run (h : Host m) (file : String) (input : Option String) (starts : List String) :
    Attempt m Answer := do
  let w ← readWorkflow h file
  let payload ← readPayload h input
  let explicit := if starts.isEmpty then none else some starts
  let label ← h.labelRun
  match w.runTimed .builtin hostClock {} explicit (some payload) [] runPatienceMs with
  | .error fault =>
    throw ⟨"failed to start workflow run",
      ["invalid workflow structure: " ++ fault.message, fault.message]⟩
  | .ok record =>
    match record.last.run.outcome? with
    | none =>
      throw ⟨"workflow run did not finish", ["run task failed: the clock has no such instant"]⟩
    | some outcome =>
      h.passTime ((record.last.log.getLast?.map Prod.fst).getD 0)
      let report := outcomeJson label.id label.stamp outcome record.last.log
      let output := report.indented ++ "\n"
      if outcome.status = .failed then
        return .failure output
          ⟨"workflow run failed: " ++ outcome.error.getD "unknown error", []⟩
      else return .success output ""

/-- The directory of a file below a directory. -/
def directoryOf (directory path : String) : String :=
  match (path.splitOn "/").dropLast with
  | [] => directory
  | names => joinPath directory ("/".intercalate names)

/-- Write files below a directory, in order, until one fails. -/
def writeFiles (h : Host m) (directory : String) :
    List Program.SourceFile → m (Except FileFault Unit)
  | [] => pure (.ok ())
  | file :: rest => do
    match ← h.makeDirectories (directoryOf directory file.path) with
    | .error fault => return .error fault
    | .ok () =>
      match ← h.writeFile (joinPath directory file.path) file.text with
      | .error fault => return .error fault
      | .ok () => writeFiles h directory rest

/-- The project of a workflow for a target. -/
def projectOf (w : Workflow) (target : Target) (metadata : Program.Metadata) :
    Except Program.Airflow.CycleFault Program.Project :=
  match target with
  | .temporal => .ok (Program.Temporal.project w {} metadata)
  | .airflow => Program.Airflow.project w {} metadata

/-- Write the project made from a workflow. -/
def generate (h : Host m) (file : String) (options : GenerateOptions) : Attempt m Answer := do
  let w ← readWorkflow h file
  let metadata : Program.Metadata := {
    name := options.name.getD w.name
    description := options.description.getD w.description
    taskQueue := options.taskQueue }
  let project ← orFail "failed to generate program" Program.Airflow.CycleFault.message
    (projectOf w options.target metadata)
  let directory := options.output.getD metadata.identifier
  let refused := "failed to write program to " ++ directory
  orFail refused FileFault.message (← h.makeDirectories directory)
  let written : m (Except FileFault Unit) := writeFiles h directory project.files
  orFail refused FileFault.message (← written)
  return .success "" <|
    "Generated " ++ toString project.files.length ++ " files in " ++ directory ++ "\n" ++
      String.join (project.placeholders.map fun typeTag =>
        "⚠ no implementation for node type '" ++ typeTag ++ "': placeholder emitted\n")

/-- What stands at the head of the help. -/
def helpText : String :=
  Program.textOfLines
    ["Twiddle - validate, interpret and compile workflow graphs",
     "",
     "Usage: twiddle [OPTIONS] [COMMAND]",
     "",
     "Commands:",
     "  validate <FILE> [--format text|json]",
     "  run      <FILE> [--input JSON] [--start NODE_ID]...",
     "  generate <FILE> [--target temporal|airflow] [--output DIR] [--name NAME]",
     "           [--description TEXT] [--task-queue QUEUE]",
     "",
     "Options:",
     "  --log-level <LEVEL>",
     "  -h, --help",
     "  -V, --version"]

/-- Carry out a command. -/
def Command.execute (h : Host m) (command : Command) : m Answer := do
  let attempt : Attempt m Answer :=
    match command with
    | .greet => return .success "twiddle - use --help to see available commands\n" ""
    | .help => return .success helpText ""
    | .version => return .success "twiddle 0.0.1-alpha.0\n" ""
    | .validate file format => FlowGraph.CommandLine.validate h file format
    | .run file input starts => FlowGraph.CommandLine.run h file input starts
    | .generate file options => FlowGraph.CommandLine.generate h file options
  match ← attempt.run with
  | .ok answer => return answer
  | .error f => return .failure "" f

/-- Answer to arguments. -/
def answer (h : Host m) (arguments : List String) : m Answer :=
  match Command.ofArguments arguments with
  | .ok command => command.execute h
  | .error fault => return .usage fault.message

end FlowGraph.CommandLine
