import ScriptBlocks.Environment
import ScriptBlocks.Log
import ScriptBlocks.Text.LowerCase
import ScriptBlocks.Text.Numeral

/-!
# Settings

The settings of the program are read from environment variables.  Reading never fails: what is
missing or malformed has a default, and what is too small is raised to the least value.
-/

namespace ScriptBlocks

/-- The settings of the program. -/
structure Settings where
  host : String := "127.0.0.1"
  port : Int := 8080
  /-- The greatest number of bytes in a document that the service takes. -/
  maxDocumentBytes : Int := 5 * 1024 * 1024
  logLevel : Level := .info
  /-- The suffixes of the files that are picked up in a directory. -/
  extensions : List String := [".mpx"]
  deriving DecidableEq, Repr

namespace Settings

/-- The least bound on the size of documents that can be set. -/
def leastMaxDocumentBytes : Int := 1024

/-- The integer that the environment gives to a name, or `default` if it gives none. -/
def integer (env : Environment) (name : String) (default : Int) : Int :=
  ((env.get? name).bind Text.Numeral.readInt?).getD default

/-- The host of a setting; a blank one stands for `default`. -/
def hostOf (default setting : String) : String :=
  let host := Text.trimmed setting
  if host = "" then default else host

/-- The suffix of one item of a list of suffixes: trimmed, in lower case and with a leading dot.
A blank item gives none. -/
def extension? (item : List Char) : Option String :=
  match Text.lowerCase (Text.trim item) with
  | [] => none
  | c :: s => some (String.ofList (if c = '.' then c :: s else '.' :: c :: s))

/-- The suffixes of a list with commas between its items. -/
def extensionsOf (setting : String) : List String :=
  (setting.toList.splitOn ',').filterMap extension?

/-- Reads the settings from an environment. -/
def ofEnvironment (env : Environment) : Settings :=
  let default : Settings := {}
  let extensions := ((env.get? "MPXSCAN_EXTENSIONS").map extensionsOf).getD default.extensions
  { host := hostOf default.host (env.getD "MPXSCAN_HOST" default.host)
    port := integer env "MPXSCAN_PORT" default.port
    maxDocumentBytes :=
      max leastMaxDocumentBytes
        (integer env "MPXSCAN_MAX_DOCUMENT_BYTES" default.maxDocumentBytes)
    logLevel :=
      ((env.get? "MPXSCAN_LOG_LEVEL").bind fun s => Level.ofName? (Text.trim s.toList)).getD
        default.logLevel
    extensions := if extensions.isEmpty then default.extensions else extensions }

end Settings

end ScriptBlocks
