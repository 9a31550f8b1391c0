/-!
# Arguments of the command line

The arguments name one command, its workflow file and its options, in any order after the name.
They are read from left to right, one at a time; the first one that cannot be right, or that asks
for help, settles the reading.

Current gaps:

- What help and version have to say, and the words in which wrong arguments are refused, are left
  out.
- The log and its level have no effect here.
-/

namespace FlowGraph.CommandLine

/-- How a validation is reported. -/
inductive ReportFormat where
  | text
  | json
deriving DecidableEq

/-- What a workflow is turned into. -/
inductive Target where
  | temporal
  | airflow
deriving DecidableEq

/-- What `generate` is asked for. -/
structure GenerateOptions where
  target : Target
  output : Option String
  name : Option String
  description : Option String
  taskQueue : Option String

/-- What the program is asked for. -/
inductive Command where
  /-- Say how to find the commands. -/
  | greet
  | help
  | version
  | validate (file : String) (format : ReportFormat)
  | run (file : String) (input : Option String) (starts : List String)
  | generate (file : String) (options : GenerateOptions)

/-- The commands that take arguments of their own. -/
inductive Verb where
  | validate
  | run
  | generate
  | help
deriving DecidableEq

namespace Verb

/-- The verb of a name. -/
def ofName? : String → Option Verb
  | "validate" => some .validate
  | "run" => some .run
  | "generate" => some .generate
  | "help" => some .help
  | _ => none

end Verb

/-- The options that take a value. -/
inductive OptionKey where
  | logLevel
  | format
  | input
  | start
  | target
  | output
  | name
  | description
  | taskQueue
deriving DecidableEq

namespace OptionKey

/-- The long spelling of an option. -/
def spelling : OptionKey → String
  | .logLevel => "log-level"
  | .format => "format"
  | .input => "input"
  | .start => "start"
  | .target => "target"
  | .output => "output"
  | .name => "name"
  | .description => "description"
  | .taskQueue => "task-queue"

/-- The options that may follow a verb, or stand before any. -/
def allowed : Option Verb → List OptionKey
  | none => [.logLevel]
  | some .validate => [.logLevel, .format]
  | some .run => [.logLevel, .input, .start]
  | some .generate => [.logLevel, .target, .output, .name, .description, .taskQueue]
  | some .help => []

/-- Whether an option may be given more than once. -/
def repeats (key : OptionKey) : Bool := key = .start

end OptionKey

/-- Why arguments are refused. -/
inductive UsageFault where
  | unknownArgument (argument : String)
  | unknownCommand (name : String)
  | valueMissing (key : OptionKey)
  | valueRefused (key : OptionKey) (value : String)
  | givenTwice (key : OptionKey)
  | fileMissing
deriving DecidableEq

namespace UsageFault

/-- The fault in words. -/
def message : UsageFault → String
  | .unknownArgument argument => "unexpected argument '" ++ argument ++ "' found"
  | .unknownCommand name => "unrecognized subcommand '" ++ name ++ "'"
  | .valueMissing key => "a value is required for '--" ++ key.spelling ++ "' but none was supplied"
  | .valueRefused key value => "invalid value '" ++ value ++ "' for '--" ++ key.spelling ++ "'"
  | .givenTwice key => "the argument '--" ++ key.spelling ++ "' cannot be used multiple times"
  | .fileMissing => "the following required arguments were not provided: <WORKFLOW_FILE>"

end UsageFault

/-- What ends the reading before the last argument. -/
inductive Stop where
  | help
  | version
  | fault (f : UsageFault)

/-- The arguments read so far. -/
structure ArgumentReading where
  verb : Option Verb := none
  /-- The option whose value is due. -/
  pending : Option OptionKey := none
  /-- Whether `--` has been read, after which nothing is an option. -/
  plainOnly : Bool := false
  file : Option String := none
  /-- Options read for the verb, in order. -/
  given : List (OptionKey × String) := []
  /-- Whether `help` has been told a command. -/
  helpNamed : Bool := false

namespace ArgumentReading

/-- Refuse the arguments. -/
def refuse (f : UsageFault) : Except Stop ArgumentReading := .error (.fault f)

/-- Whether an option takes a value. -/
def accepts (key : OptionKey) (value : String) : Bool :=
  match key with
  | .format => value = "text" || value = "json"
  | .target => value = "temporal" || value = "airflow"
  | .output => !value.isEmpty
  | _ => true

/-- Take the value of an option. -/
def takeValue (r : ArgumentReading) (key : OptionKey) (value : String) :
    Except Stop ArgumentReading :=
  if !accepts key value then refuse (.valueRefused key value)
  else if !key.repeats && r.given.any (·.1 = key) then refuse (.givenTwice key)
  else .ok { r with pending := none, given := r.given ++ [(key, value)] }

/-- Take an option, with the value attached to it if there is one. -/
def takeOption (r : ArgumentReading) (argument : String) (key : Option OptionKey)
    (attached : Option String) : Except Stop ArgumentReading :=
  match key, attached with
  | some key, some value => r.takeValue key value
  | some key, none => .ok { r with pending := some key }
  | none, _ => refuse (.unknownArgument argument)

/-- Take what follows two hyphens. -/
def takeLong (r : ArgumentReading) (argument : String) (body : List Char) :
    Except Stop ArgumentReading :=
  let name := String.ofList (body.takeWhile (· ≠ '='))
  let attached :=
    match body.dropWhile (· ≠ '=') with
    | _ :: value => some (String.ofList value)
    | [] => none
  match name, attached with
  | "help", none => .error .help
  | "version", none =>
    if r.verb.isNone then .error .version else refuse (.unknownArgument argument)
  | _, _ =>
    r.takeOption argument ((OptionKey.allowed r.verb).find? fun k => k.spelling = name) attached

/-- Take what follows one hyphen: `h` for help, `V` for the version, or `o` for the output and
perhaps its value. -/
def takeShort (r : ArgumentReading) (argument : String) (body : List Char) :
    Except Stop ArgumentReading :=
  match body with
  | 'h' :: _ => .error .help
  | 'V' :: _ => if r.verb.isNone then .error .version else refuse (.unknownArgument argument)
  | 'o' :: value =>
    let key := (OptionKey.allowed r.verb).find? (· = .output)
    match value with
    | [] => r.takeOption argument key none
    | '=' :: value => r.takeOption argument key (some (String.ofList value))
    | value => r.takeOption argument key (some (String.ofList value))
  | _ => refuse (.unknownArgument argument)

/-- Take an argument that is no option: the verb, or the workflow file. -/
def takePlain (r : ArgumentReading) (argument : String) : Except Stop ArgumentReading :=
  match r.verb with
  | none =>
    if r.plainOnly then refuse (.unknownArgument argument)
    else
      match Verb.ofName? argument with
      | some verb => .ok { verb := some verb }
      | none => refuse (.unknownCommand argument)
  | some .help =>
    if r.helpNamed || (Verb.ofName? argument).isNone then refuse (.unknownCommand argument)
    else .ok { r with helpNamed := true }
  | some _ =>
    if r.file.isSome then refuse (.unknownArgument argument)
    else if argument.isEmpty then refuse .fileMissing
    else .ok { r with file := some argument }

/-- Take one argument. -/
def take (r : ArgumentReading) (argument : String) : Except Stop ArgumentReading :=
  if r.verb = some .help then r.takePlain argument
  else
    match r.pending, r.plainOnly, argument.toList with
    | some key, _, '-' :: _ :: _ => refuse (.valueMissing key)
    | some key, _, _ => r.takeValue key argument
    | none, true, _ => r.takePlain argument
    | none, false, ['-', '-'] => .ok { r with plainOnly := true }
    | none, false, '-' :: '-' :: body => r.takeLong argument body
    | none, false, '-' :: c :: body => r.takeShort argument (c :: body)
    | none, false, _ => r.takePlain argument

/-- The value given for an option. -/
def value? (r : ArgumentReading) (key : OptionKey) : Option String := r.given.lookup key

/-- The command of a verb with its file. -/
def commandOn (r : ArgumentReading) (verb : Verb) (file : String) : Command :=
  match verb with
  | .validate => .validate file (if r.value? .format = some "json" then .json else .text)
  | .run =>
    .run file (r.value? .input) ((r.given.filter (·.1 = .start)).map Prod.snd)
  | .generate =>
    .generate file {
      target := if r.value? .target = some "airflow" then .airflow else .temporal
      output := r.value? .output
      name := r.value? .name
      description := r.value? .description
      taskQueue := r.value? .taskQueue }
  | .help => .help

/-- The command of complete arguments. -/
def finish (r : ArgumentReading) : Except Stop Command :=
  match r.pending, r.verb, r.file with
  | some key, _, _ => .error (.fault (.valueMissing key))
  | none, none, _ => .ok .greet
  | none, some .help, _ => .ok .help
  | none, some _, none => .error (.fault .fileMissing)
  | none, some verb, some file => .ok (r.commandOn verb file)

end ArgumentReading

/-- The command that arguments ask for. -/
def Command.ofArguments (arguments : List String) : Except UsageFault Command :=
  match arguments.foldlM ArgumentReading.take {} >>= ArgumentReading.finish with
  | .ok command => .ok command
  | .error .help => .ok .help
  | .error .version => .ok .version
  | .error (.fault f) => .error f

end FlowGraph.CommandLine
