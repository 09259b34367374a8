import ScriptBlocks.Arguments.Invocation
import ScriptBlocks.EnvFile
import ScriptBlocks.Extract

/-!
# The command

`Command.run` is the program: it loads the environment file, reads the settings from the
environment and runs the command that the arguments name.  The environment file is the one that
the arguments name, else the one that the environment names, else `.env`.
-/

namespace ScriptBlocks.Command

/-- Why the program breaks off. -/
inductive Error where
  | envFile (error : EnvFile.LoadError)
  | path (error : FileError)
  deriving DecidableEq, Repr

def Error.message : Error → String
  | envFile error => error.message
  | path error => error.message

/-- How the program ends. -/
inductive Ending where
  /-- The arguments stop it before a command runs. -/
  | stopped (stop : Arguments.Stop)
  /-- The command comes to its end, with an exit status. -/
  | finished (status : Nat)
  | failed (error : Error)
  deriving DecidableEq, Repr

/-- What a run of the program comes to. -/
structure Outcome where
  ending : Ending
  stdout : String := ""
  /-- What it prints of logs and errors. -/
  stderr : String := ""
  serve : Option Arguments.ServeRequest := none
  deriving DecidableEq, Repr

/-- Lines, each with its end. -/
def printed (lines : List String) : String := String.join (lines.map (· ++ "\n"))

/-- What is found in files, as a listing or as a report in JSON.  A run that breaks off has
printed the listing so far, and no report. -/
def stdoutOf (json : Bool) (found : Findings) : String :=
  if json then
    if found.error?.isSome then ""
    else printed [(Extract.reportJson found.report).render 0]
  else printed found.listing

def extract (fs : FileSystem) (settings : Settings) (paths : List String) (json : Bool) :
    Outcome :=
  let found := Extract.find fs settings.extensions paths
  { ending := match found.error? with
      | some error => .failed (.path error)
      | none => .finished found.status
    stdout := stdoutOf json found
    stderr := printed (found.notices settings.logLevel) }

def dispatch (fs : FileSystem) (settings : Settings) : Arguments.Command → Outcome
  | .extract paths json => extract fs settings paths json
  | .serve request => { ending := .finished 0, serve := some request }

/-- The environment file: the one that is given, or none if an option for it is given without a
value; else the one that the environment names, else `.env`. -/
def envFileName (env : Environment) (given : Option (Option String)) : Option String :=
  given.getD (some (env.getD "ENV_FILE" ".env"))

/-- Runs the program on what is left once the environment file is loaded. -/
def runLoaded (fs : FileSystem) (env : Environment) (arguments : List String) : Outcome :=
  let settings := Settings.ofEnvironment env
  match Arguments.Invocation.ofArguments settings arguments with
  | .error stop => { ending := .stopped stop }
  | .ok invocation => dispatch fs settings invocation.command

/-- Runs the program.  What loading the environment file logs comes before any setting of the log
and is printed as the bare message. -/
def run (fs : FileSystem) (env : Environment) (arguments : List String) : Outcome :=
  match Arguments.envFileGiven arguments with
  | .error stop => { ending := .stopped stop }
  | .ok given =>
    let loading := EnvFile.load fs env (envFileName env given)
    let logged := printed (loading.log.map (·.message))
    match loading.error? with
    | some error => { ending := .failed (.envFile error), stderr := logged }
    | none =>
      let outcome := runLoaded fs loading.environment arguments
      { outcome with stderr := logged ++ outcome.stderr }

end ScriptBlocks.Command
