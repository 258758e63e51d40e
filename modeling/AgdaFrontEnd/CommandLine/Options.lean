import AgdaFrontEnd.CommandLine.Arguments
import AgdaFrontEnd.CommandLine.Usage
import AgdaFrontEnd.Integer
import AgdaFrontEnd.World.Journal

/-!
# What the command line asks for

* `Request`: the command with its options.
* `Invocation`: a request with the options that stand before the command.
* `Invocation.ofArguments`: reading the arguments of the program.
-/

namespace AgdaFrontEnd

/-- The options of checking and running. -/
structure CheckOptions where
  path : Option Text
  text : Bool
  interactive : Bool
  quiet : Bool
  deriving DecidableEq, Repr

/-- A command with its options. -/
inductive Request where
  | check (options : CheckOptions)
  | run (options : CheckOptions)
  | checkAll (path : Option Text) (text : Bool)
  | compile (path : Option Text) (run : Bool)
  | package (path : Option Text)
  | serve (endpoint : Endpoint)
  deriving DecidableEq, Repr

/-- What the command line asks for; the command may be missing. -/
structure Invocation where
  prover : Option Text
  verbose : Bool
  request : Option Request
  deriving DecidableEq, Repr

namespace CommandLine

/-- The name of the program. -/
def program : Text := "agda-cli".toList

/-- The wording for a value that is none of the choices. -/
def choiceMessage (choices : List Text) (t : Text) : Text :=
  "invalid choice: ".toList ++ t.quoted ++ " (choose from ".toList ++
    ", ".toList.intercalate (choices.map Text.quoted) ++ [')']

/-- Refuses a value that is none of the choices. -/
def oneOf (choices : List Text) (t : Text) : Option Text :=
  if choices.contains t then none else some (choiceMessage choices t)

/-- Refuses a value that is no integer. -/
def integer (t : Text) : Option Text :=
  match Integer.ofText t with
  | .ok _ => none
  | .error _ => some ("invalid int value: ".toList ++ t.quoted)

/-- The names of the transports. -/
def transports : List (Text × Transport) :=
  [("stdio".toList, .stdio), ("http".toList, .http), ("sse".toList, .sse)]

def helpOption : OptionSpec := ⟨["-h".toList, "--help".toList], .help⟩
def proverOption : OptionSpec := ⟨["--agda".toList], .value fun _ => none⟩
def verboseOption : OptionSpec := ⟨["-v".toList, "--verbose".toList], .flag⟩
def textOption : OptionSpec := ⟨["--text".toList], .flag⟩
def interactiveOption : OptionSpec := ⟨["--interactive".toList], .flag⟩
def quietOption : OptionSpec := ⟨["-q".toList, "--quiet".toList], .flag⟩
def runOption : OptionSpec := ⟨["--run".toList], .flag⟩
def transportOption : OptionSpec := ⟨["--transport".toList], .value (oneOf (transports.map (·.1)))⟩
def portOption : OptionSpec := ⟨["--port".toList], .value integer⟩
def hostOption : OptionSpec := ⟨["--host".toList], .value fun _ => none⟩

/-- The first name of an option. -/
def keyOf (o : OptionSpec) : Text := o.names.head?.getD []

/-- The arguments before the command. -/
def top : Grammar :=
  ⟨program, Usage.topUsage, Usage.topHelp, [helpOption, proverOption, verboseOption], .command⟩

/-- The grammar of the arguments of a command with a path, which may be left out. -/
def command (name usage help : Text) (options : List OptionSpec) : Grammar :=
  ⟨program ++ [' '] ++ name, usage, help, helpOption :: options, .single⟩

/-- The grammar of the arguments of serving, which takes no path. -/
def serveGrammar : Grammar :=
  ⟨program ++ " serve".toList, Usage.serveUsage, Usage.serveHelp,
    [helpOption, transportOption, portOption, hostOption], .nothing⟩

/-- The options of checking and running that were given. -/
def checkOptions (p : Parsed) : CheckOptions where
  path := p.positional.join
  text := p.has (keyOf textOption)
  interactive := p.has (keyOf interactiveOption)
  quiet := p.has (keyOf quietOption)

/-- A setting: the usual one unless its option was given. -/
def setting (p : Parsed) (o : OptionSpec) (usual : Option α) (read : Text → Option α) : Option α :=
  match p.given.lookup (keyOf o) with
  | none => usual
  | some value => value.bind read

/-- The options of serving that were given. -/
def serveRequest (p : Parsed) : Request :=
  let usual : Endpoint := {}
  .serve
    { transport := setting p transportOption usual.transport fun t => List.lookup t transports
      host := setting p hostOption usual.host some
      port := setting p portOption usual.port fun t => (Integer.ofText t).toOption }

/-- The commands: the name, the grammar of the arguments, and the request they make. -/
def commands : List (Text × Grammar × (Parsed → Request)) :=
  [("check".toList,
    command "check".toList Usage.checkUsage Usage.checkHelp [textOption, interactiveOption, quietOption],
    fun p => .check (checkOptions p)),
   ("run".toList,
    command "run".toList Usage.runUsage Usage.runHelp [textOption, interactiveOption, quietOption],
    fun p => .run (checkOptions p)),
   ("checkAll".toList,
    command "checkAll".toList Usage.checkAllUsage Usage.checkAllHelp [textOption],
    fun p => .checkAll p.positional.join (p.has (keyOf textOption))),
   ("compile".toList,
    command "compile".toList Usage.compileUsage Usage.compileHelp [runOption],
    fun p => .compile p.positional.join (p.has (keyOf runOption))),
   ("js".toList,
    command "js".toList Usage.packageUsage Usage.packageHelp [],
    fun p => .package p.positional.join),
   ("serve".toList, serveGrammar, serveRequest)]

/-- The wording for a command that does not exist. -/
def unknownCommand (name : Text) : Text :=
  "argument command: ".toList ++ choiceMessage (commands.map (·.1)) name

end CommandLine

namespace Invocation

open CommandLine

/-- What the arguments of the program ask for.  Arguments that nothing takes are a misuse of the
program itself, also those behind a command. -/
def ofArguments (args : List Text) : Except Stop Invocation := do
  let p ← top.parse args
  let (request, extras) ← match p.positional.join with
    | none => pure (none, [])
    | some name =>
      match List.lookup name commands with
      | none => throw (top.misuse (unknownCommand name))
      | some (grammar, request) => do
        let q ← grammar.parse p.rest
        pure (some (request q), q.extras)
  match p.extras ++ extras with
  | [] =>
    return ⟨p.value? (keyOf proverOption), p.has (keyOf verboseOption), request⟩
  | extras => throw (top.misuse ("unrecognized arguments: ".toList ++ [' '].intercalate extras))

end Invocation

end AgdaFrontEnd
