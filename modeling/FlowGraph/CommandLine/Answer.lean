/-!
# Answers of the command line

A command ends with an exit code and what it wrote to the two output streams.  A failure is told
as a message followed by its causes, outermost first.
-/

namespace FlowGraph.CommandLine

/-- What a command leaves behind. -/
structure Answer where
  exitCode : Nat
  output : String
  errors : String
deriving DecidableEq

/-- A message and its causes. -/
structure Failure where
  message : String
  causes : List String
deriving DecidableEq

namespace Failure

/-- A cause on lines of its own: the first behind a margin, the others behind another. -/
def causeText (margin further cause : String) : String :=
  "\n" ++ margin ++ ("\n" ++ further).intercalate (cause.splitOn "\n")

/-- The number before a cause, right-aligned. -/
def numberMargin (number : Nat) : String :=
  let digits := toString number
  String.ofList (List.replicate (5 - digits.length) ' ') ++ digits ++ ": "

/-- The causes below a heading; several are numbered. -/
def causesText : List String → String
  | [] => ""
  | [cause] => "\n\nCaused by:" ++ causeText "    " "    " cause
  | causes =>
    "\n\nCaused by:" ++
      String.join (causes.zipIdx.map fun (cause, number) =>
        causeText (numberMargin number) "       " cause)

/-- The failure as text. -/
def text (f : Failure) : String := "Error: " ++ f.message ++ causesText f.causes ++ "\n"

end Failure

namespace Answer

/-- A command that did what it was asked for. -/
def success (output errors : String) : Answer := ⟨0, output, errors⟩

/-- A command that failed after some output. -/
def failure (output : String) (f : Failure) : Answer := ⟨1, output, f.text⟩

/-- Arguments that are no command. -/
def usage (message : String) : Answer :=
  ⟨2, "", "error: " ++ message ++ "\n\nFor more information, try '--help'.\n"⟩

end Answer

end FlowGraph.CommandLine
