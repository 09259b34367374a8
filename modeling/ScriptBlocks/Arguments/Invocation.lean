import ScriptBlocks.Arguments.Reading
import ScriptBlocks.Settings

/-!
# Invocations

The arguments of the program name a command, with options before the name that hold for all
commands and options after it that are its own.  `envFileGiven` looks for the one option that must
be known first, the environment file, and passes over all others; `Invocation.ofArguments` reads
the arguments in full.
-/

namespace ScriptBlocks.Arguments

/-- A request to start the service. -/
structure ServeRequest where
  /-- The host to listen on, unless the option for it has no value. -/
  host : Option String
  /-- The port to listen on, unless the option for it has no value. -/
  port : Option Int
  /-- Whether the service starts anew when its code changes. -/
  reload : Bool := false
  deriving DecidableEq, Repr

/-- The application that is served. -/
def ServeRequest.target (_ : ServeRequest) : String := "mpxscan.app:app"

/-- A command. -/
inductive Command where
  | extract (paths : List String) (json : Bool)
  | serve (request : ServeRequest)
  deriving DecidableEq, Repr

/-- A command with the options that hold for all commands. -/
structure Invocation where
  /-- What the last option for the environment file names, if there is one: a file, or none if it
  has no value. -/
  envFile : Option (Option String)
  command : Command
  deriving DecidableEq, Repr

/-! ### The grammars -/

/-- The option that names the environment file. -/
def envFileOption : String × Action (Option String) := ("--env-file", .value some)

def helpOptions {α : Type} : List (String × Action α) := [("-h", .help), ("--help", .help)]

/-- The grammar of the first look at the arguments, which knows one option only. -/
def envFileGrammar : Grammar (Option String) where
  options := [envFileOption]
  operands := .none

/-- The grammar of the arguments up to the name of the command. -/
def programGrammar : Grammar (Option String) where
  options := helpOptions ++ [envFileOption]
  operands := .command

/-- The grammar of extraction; its one flag asks for JSON. -/
def extractGrammar : Grammar Unit where
  options := helpOptions ++ [("--json", .flag ())]
  operands := .some

/-- What an option of the service changes in a request. -/
abbrev ServeSetting := ServeRequest → ServeRequest

/-- The change that an option's value makes to the port, if the value is none or an integer. -/
def readPort (value : Option String) : Option ServeSetting :=
  match value with
  | none => some fun request => { request with port := none }
  | some s => (Text.Numeral.readInt? s).map fun port request => { request with port := some port }

/-- The grammar of the service. -/
def serveGrammar : Grammar ServeSetting where
  options := helpOptions ++
    [("--host", .value fun host => some fun request => { request with host }),
     ("--port", .value readPort),
     ("--reload", .flag fun request => { request with reload := true })]
  operands := .none

/-! ### Reading -/

/-- What the last option for the environment file names, if the arguments hold one. -/
def envFileGiven (arguments : List String) : Except Stop (Option (Option String)) := do
  return (← envFileGrammar.read arguments).settings.getLast?

/-- A command by name, with its own arguments and the number of those left over. -/
def readCommand (settings : Settings) (name : String) (arguments : List String) :
    Except Stop (Command × List String) :=
  if name = "extract" then do
    let r ← extractGrammar.read arguments
    match r.operands with
    | none => throw .usage
    | some paths => return (.extract paths (!r.settings.isEmpty), r.extras)
  else if name = "serve" then do
    let r ← serveGrammar.read arguments
    let request : ServeRequest := { host := some settings.host, port := some settings.port }
    return (.serve (r.settings.foldl (fun request set => set request) request), r.extras)
  else throw .usage

/-- The invocation that arguments make; the settings are the defaults of the service's options. -/
def Invocation.ofArguments (settings : Settings) (arguments : List String) :
    Except Stop Invocation := do
  let r ← programGrammar.read arguments
  match r.operands with
  | none | some [] => throw .usage
  | some (name :: rest) =>
    let (command, extras) ← readCommand settings name rest
    if r.extras = [] ∧ extras = [] then return ⟨r.settings.getLast?, command⟩ else throw .usage

end ScriptBlocks.Arguments
