import ScriptBlocks.Environment
import ScriptBlocks.Log
import ScriptBlocks.Text.Blank
import ScriptBlocks.TextFile

/-!
# Environment files

An environment file holds assignments `name = value`, one a line, which are added to an
environment in their order.  Blank lines, lines that begin with `#` and lines without `=` say
nothing.  Loading stops at the first assignment that an environment cannot take; what was assigned
before it stays.
-/

namespace ScriptBlocks.EnvFile

open Text

/-! ### Assignments -/

/-- The name and the value of a text around its first `=`, if it has one. -/
def splitAssignment? (s : List Char) : Option (List Char × List Char) :=
  let (name, rest) := s.span (· != '=')
  match rest with
  | [] => none
  | _ :: value => some (name, value)

/-- The assignment that a line makes, if it makes one. -/
def assignment? (line : List Char) : Option (String × String) :=
  let s := trim line
  if s.head? = some '#' then none
  else (splitAssignment? s).map fun (name, value) =>
    (String.ofList (trim name), String.ofList (trim value))

/-- The assignments of a text, in their order. -/
def assignments (text : List Char) : List (String × String) :=
  (lines text).filterMap assignment?

/-- Why an environment cannot take an assignment. -/
inductive AssignmentError where
  | embeddedNul
  | emptyName
  deriving DecidableEq, Repr

/-- The error in words; those of the system have a number. -/
def AssignmentError.message : AssignmentError → String
  | embeddedNul => "embedded null byte"
  | emptyName => "[Errno 22] Invalid argument"

/-- Why the environment cannot take an assignment, if it cannot. -/
def assignmentError? (name value : String) : Option AssignmentError :=
  if name.toList.contains '\x00' || value.toList.contains '\x00' then some .embeddedNul
  else if name = "" then some .emptyName
  else none

/-- Adds assignments up to the first that the environment cannot take, which gives the error. -/
def assign (env : Environment) : List (String × String) → Environment × Option AssignmentError
  | [] => (env, none)
  | (name, value) :: rest =>
    match assignmentError? name value with
    | some error => (env, some error)
    | none => assign (env.set name value) rest

/-! ### Loading -/

/-- Why loading stops. -/
inductive LoadError where
  | path (error : FileError)
  | notUtf8 (fault : Utf8.Fault)
  | assignment (error : AssignmentError)
  deriving DecidableEq, Repr

def LoadError.message : LoadError → String
  | path error => error.message
  | notUtf8 fault => TextFile.faultMessage fault
  | assignment error => error.message

/-- What loading a file comes to. -/
structure Loading where
  environment : Environment
  /-- Why loading stopped, if it did. -/
  error? : Option LoadError := none
  log : List LogRecord := []
  deriving DecidableEq, Repr

def loadText (env : Environment) (text : List Char) : Loading :=
  let (env, error?) := assign env (assignments text)
  { environment := env, error? := error?.map .assignment }

/-- Adds the assignments of the file that a path leads to.  A file that is there and cannot be
read is logged and adds nothing. -/
def loadPath (fs : FileSystem) (env : Environment) (p : Path) : Loading :=
  match fs.reaches p with
  | .error error => { environment := env, error? := some (.path error) }
  | .ok false => { environment := env }
  | .ok true =>
    match TextFile.read fs p with
    | .ok text => loadText env text
    | .error (.notUtf8 fault) => { environment := env, error? := some (.notUtf8 fault) }
    | .error (.file error) =>
      let message := s!"could not read {p.toString}: {error.message}"
      { environment := env, log := [⟨.warning, commandLogger, message⟩] }

/-- Adds the assignments of the file that is named, if one is; the empty name names none. -/
def load (fs : FileSystem) (env : Environment) (name? : Option String) : Loading :=
  match name? with
  | none => { environment := env }
  | some name =>
    if name = "" then { environment := env } else loadPath fs env (Path.ofString name)

end ScriptBlocks.EnvFile
