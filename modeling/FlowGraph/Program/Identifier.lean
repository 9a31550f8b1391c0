import FlowGraph.Text.Split
import FlowGraph.Workflow.Kind

/-!
# Names in generated programs

Names of workflows, classes, functions and tasks are derived from free text.  Distinct keys get
distinct names: a name already taken is numbered from two on.
-/

namespace FlowGraph.Program

/-- ASCII letters and digits. -/
def isNameChar (c : Char) : Bool := c.isAlphanum

/-- The lower-case form of a character.  Outside ASCII it is given for the two characters whose
lower-case form starts with an ASCII letter; every other one stays a separator. -/
def lowerCase (c : Char) : List Char :=
  if c = '\u0130' then ['i', '\u0307']
  else if c = '\u212a' then ['k']
  else [c.toLower]

/-- The words of a text in lower case, joined by underscores; a leading digit gets one more. -/
def snake (text : List Char) : List Char :=
  let joined := ['_'].intercalate (Text.words (!isNameChar ·) (text.flatMap lowerCase))
  match joined with
  | c :: _ => if c.isDigit then '_' :: joined else joined
  | [] => []

/-- The name of a workflow without usable characters. -/
def defaultIdentifier : String := "twiddle_workflow"

/-- The identifier of a workflow name. -/
def workflowIdentifier (name : String) : String :=
  match snake name.toList with
  | [] => defaultIdentifier
  | cs => String.ofList cs

/-! ## Class names -/

/-- The case of the letters met last in a word. -/
inductive LetterCase where
  | undecided
  | lower
  | upper
deriving DecidableEq

/-- The case after one more character; only letters change it. -/
def LetterCase.after (current : LetterCase) (c : Char) : LetterCase :=
  if c.isLower then .lower else if c.isUpper then .upper else current

/-- Cut a run of letters and digits into words: between a lower-case and an upper-case letter, and
before the last of several upper-case letters that a lower-case one follows.  `word` is the word so
far, last character first. -/
def caseWords (word : List Char) (current : LetterCase) : List Char → List (List Char)
  | [] => if word.isEmpty then [] else [word.reverse]
  | [c] => [(c :: word).reverse]
  | c :: next :: rest =>
    if current.after c = .lower ∧ next.isUpper then
      (c :: word).reverse :: caseWords [] .undecided (next :: rest)
    else if current = .upper ∧ c.isUpper ∧ next.isLower then
      word.reverse :: caseWords [c] .undecided (next :: rest)
    else caseWords (c :: word) (current.after c) (next :: rest)

/-- A word with its first letter in upper case and all others in lower case. -/
def capitalize : List Char → List Char
  | [] => []
  | c :: rest => c.toUpper :: rest.map Char.toLower

/-- The capitalized words of an ASCII text in a row. -/
def upperCamel (text : List Char) : List Char :=
  (Text.words (!isNameChar ·) text).flatMap fun piece =>
    (caseWords [] .undecided piece).flatMap capitalize

/-- The word at the end of every class name. -/
def classSuffix : List Char := "Workflow".toList

/-- The class name of an identifier. -/
def className (identifier : String) : String :=
  match upperCamel identifier.toList with
  | [] => "TwiddleWorkflow"
  | c :: rest =>
    let camel := if c.isDigit then '_' :: c :: rest else c :: rest
    String.ofList (if classSuffix.isSuffixOf camel then camel else camel ++ classSuffix)

/-! ## Functions and tasks -/

/-- The function name of a node type, from its last segment. -/
def functionName (typeTag : String) : String :=
  match (snake (lastSegment typeTag.toList)).dropWhile (· = '_') with
  | [] => "execute_activity"
  | cs => "execute_" ++ String.ofList cs

/-- Characters allowed in a task id. -/
def isTaskChar (c : Char) : Bool := isNameChar c || c = '_' || c = '.' || c = '-'

/-- The task id of a node id. -/
def taskId (id : String) : String :=
  match id.toList.map fun c => if isTaskChar c then c else '_' with
  | [] => "node"
  | cs => String.ofList cs

/-! ## Distinct names -/

/-- The candidate of a number: the base itself for one, numbered from two on. -/
def candidate (base : String) (number : Nat) : String :=
  if number ≤ 1 then base else base ++ "_" ++ toString number

/-- The first candidate from a number on that is not taken, out of `fuel` and one more. -/
def freshFrom (taken : List String) (base : String) (number fuel : Nat) : String :=
  match fuel with
  | 0 => candidate base number
  | fuel + 1 =>
    if taken.contains (candidate base number) then freshFrom taken base (number + 1) fuel
    else candidate base number

/-- A candidate that is not taken: as many as are taken, and one more, are distinct. -/
def fresh (taken : List String) (base : String) : String := freshFrom taken base 1 taken.length

/-- Name keys in turn, each by a candidate of its base that no earlier key has. -/
def assignFrom (base : String → String) (taken : List String) :
    List String → List (String × String)
  | [] => []
  | key :: rest =>
    let name := fresh taken (base key)
    (key, name) :: assignFrom base (name :: taken) rest

/-- Name keys in turn. -/
def assign (base : String → String) (keys : List String) : List (String × String) :=
  assignFrom base [] keys

end FlowGraph.Program
