import Relex.Dump
import Relex.Restart

/-! # The command line

The commands of the program as a function from arguments and file contents to what is printed:
`tokens` dumps the token stream of a file, `restart` checks that reading can be taken up everywhere.
Only the arguments that belong to these commands are read (`parse`).
-/

namespace Relex.CommandLine

open Markup

/-- The flags of a command. -/
structure Options where
  /-- Joins character references with the attribute values around them. -/
  highlight : Bool := false
  /-- Reads the file as an expression by itself. -/
  fragment : Bool := false
  /-- Shows tokens in JSON. -/
  json : Bool := false
  deriving Repr, DecidableEq

/-- The grammar that the options ask for. -/
def Options.reader (options : Options) : DocumentGrammar where
  grouping := if options.highlight then .values else .runs
  form := if options.fragment then .fragment else .document

/-- What is to be done. -/
inductive Invocation where
  /-- Names the program and its version. -/
  | version
  /-- Dumps the tokens of a file. -/
  | tokens (path : String) (options : Options)
  /-- Checks the restarts in a file. -/
  | restart (path : String) (options : Options)
  deriving Repr, DecidableEq

/-- The file that is read. -/
def Invocation.path? : Invocation → Option String
  | .version => none
  | .tokens path _ => some path
  | .restart path _ => some path

/-- What is wrong with arguments. -/
inductive UsageError where
  | missingCommand
  | unknownCommand (name : String)
  | missingPath
  | unexpectedArgument (argument : String)
  | repeatedFlag (flag : String)
  deriving Repr, DecidableEq

def UsageError.message : UsageError → String
  | .missingCommand => "error: a command is required: tokens or restart"
  | .unknownCommand name => "error: unrecognized command '" ++ name ++ "'"
  | .missingPath => "error: a path is required"
  | .unexpectedArgument argument => "error: unexpected argument '" ++ argument ++ "'"
  | .repeatedFlag flag => "error: the flag '" ++ flag ++ "' was given twice"

/-- Reads the arguments of a command: one path, and flags before or behind it. Everything else that is led
    by a dash is an unexpected argument: a separator `--`, a lone `-`, `--help`, and also a path of that
    form, which has to be written with its directory. -/
def parseFile (allowJson : Bool) (path? : Option String) (options : Options) :
    List String → Except UsageError (String × Options)
  | [] =>
    match path? with
    | some path => .ok (path, options)
    | none => .error .missingPath
  | "--highlight" :: args =>
    if options.highlight then .error (.repeatedFlag "--highlight")
    else parseFile allowJson path? { options with highlight := true } args
  | "--fragment" :: args =>
    if options.fragment then .error (.repeatedFlag "--fragment")
    else parseFile allowJson path? { options with fragment := true } args
  | argument :: args =>
    if argument == "--json" && allowJson then
      if options.json then .error (.repeatedFlag "--json")
      else parseFile allowJson path? { options with json := true } args
    else if argument.startsWith "-" || path?.isSome then
      .error (.unexpectedArgument argument)
    else
      parseFile allowJson (some argument) options args

/-- Reads the arguments of the program: a command with its file and flags, or the request for the version.
    There is no request for help: it is refused like any other name that is not a command. -/
def parse : List String → Except UsageError Invocation
  | [] => .error .missingCommand
  | "--version" :: _ => .ok .version
  | "-V" :: _ => .ok .version
  | "tokens" :: args => do
    let (path, options) ← parseFile true none {} args
    return .tokens path options
  | "restart" :: args => do
    let (path, options) ← parseFile false none {} args
    return .restart path options
  | name :: _ => .error (.unknownCommand name)

/-- What is found at a path. -/
inductive FileContent where
  | absent
  | unreadable (reason : String)
  | bytes (bytes : ByteArray)

/-- What a run prints, and the exit code with which it ends. -/
structure Outcome where
  code : UInt32 := 0
  stdout : String := ""
  stderr : String := ""
  deriving Repr, DecidableEq

/-- A run that fails with a message. -/
def Outcome.failure (message : String) : Outcome where
  code := 1
  stderr := message ++ "\n"

/-- The text of a file, or the message that says why there is none. -/
def readText (path : String) : FileContent → Except String String
  | .absent => .error ("Error: file not found: " ++ path)
  | .unreadable reason => .error ("Error reading " ++ path ++ ": " ++ reason)
  | .bytes bytes =>
    match String.fromUTF8? bytes with
    | some text => .ok text
    | none => .error ("Error reading " ++ path ++ ": stream did not contain valid UTF-8")

/-- The dump of the tokens of a source. -/
def tokensText (options : Options) (source : String) : Except Text.RangeError String := do
  let tape ← Reader.start options.reader source 0 source.utf8ByteSize 0
  if options.json then
    return String.ofList (Dump.json tape.tokens)
  else
    return String.ofList (← Dump.listing source.toList tape.tokens)

/-- How a check of restarts is reported. -/
def restartOutcome (path : String) (report : RestartReport) : Outcome :=
  if report.diverging.isEmpty then
    { stderr :=
        "OK: " ++ path ++ " (" ++ toString report.tokens ++ " tokens, " ++ toString report.points ++
          " restart points)\n" }
  else
    let mismatches := report.diverging.map fun offset =>
      "Mismatch: restart at offset " ++ toString offset ++ " diverges from the full scan\n"
    { code := 1
      stderr :=
        String.join mismatches ++ toString report.diverging.length ++ " of " ++
          toString report.points ++ " restart points diverged\n" }

/-- Carries out a command on the text of its file. -/
def runOn (invocation : Invocation) (source : String) : Except Text.RangeError Outcome :=
  match invocation with
  | .version => .ok { stdout := "astro 0.7.0\n" }
  | .tokens _ options => (tokensText options source).map fun text => { stdout := text }
  | .restart path options => (RestartReport.check options.reader source).map (restartOutcome path)

/-- Carries out a command on what is found at its path. -/
def runInvocation (invocation : Invocation) (content : FileContent) : Outcome :=
  let text : Except String String :=
    match invocation.path? with
    | none => .ok ""
    | some path => readText path content
  match text with
  | .error message => .failure message
  | .ok source =>
    match runOn invocation source with
    | .error error => .failure ("Error: " ++ error.message)
    | .ok outcome => outcome

/-- Runs the program on its arguments, where `content` says what is found at a path. -/
def run (args : List String) (content : String → FileContent) : Outcome :=
  match parse args with
  | .error error => { code := 2, stderr := error.message ++ "\n" }
  | .ok invocation =>
    runInvocation invocation ((invocation.path?.map content).getD .absent)

end Relex.CommandLine
