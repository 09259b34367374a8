import ScriptBlocks.Log
import ScriptBlocks.Scan
import ScriptBlocks.Settings

/-!
# The service

What the service answers: the scripts of a document sent to it (`Service.answer`), the languages
that it knows (`Service.languages`) and its version (`Service.version`).
-/

namespace ScriptBlocks.Service

/-! ### Extraction -/

/-- Why a document is refused. -/
inductive Refusal where
  /-- No text was sent. -/
  | noSource
  /-- The document has more bytes than are taken. -/
  | tooLarge (bytes : Nat) (limit : Int)
  deriving DecidableEq, Repr

def Refusal.status : Refusal → Nat
  | noSource => 400
  | tooLarge _ _ => 413

/-- The refusal in words, for the sender. -/
def Refusal.detail : Refusal → String
  | noSource => "source must be a string"
  | tooLarge _ limit => s!"document exceeds {limit} bytes"

/-- The refusal as it is logged. -/
def Refusal.record : Refusal → LogRecord
  | noSource =>
    ⟨.info, serviceLogger, "extract rejected: source missing or not a string"⟩
  | tooLarge bytes _ => ⟨.info, serviceLogger, s!"extract rejected: {bytes} bytes over limit"⟩

/-- The scripts of a document and their number. -/
structure Extraction where
  count : Nat
  scripts : List Script
  deriving DecidableEq, Repr

/-- The scripts of the document sent, where `none` stands for a document that is missing or no
text.  A document of more than `limit` bytes is refused. -/
def extract (limit : Int) (source? : Option String) : Except Refusal Extraction :=
  match source? with
  | none => .error .noSource
  | some source =>
    let bytes := Utf8.size source.toList
    if limit < bytes then .error (.tooLarge bytes limit)
    else
      let scripts := parse source
      .ok ⟨scripts.length, scripts⟩

/-- A value that is sent, as far as the service looks at it. -/
inductive Sent where
  | text (s : String)
  | other
  deriving DecidableEq, Repr

/-- The document among the values that are sent by name, if it is there and a text. -/
def sourceOf? (payload : Entries Sent) : Option String :=
  match payload.lookup "source" with
  | some (.text source) => some source
  | _ => none

/-- The greatest number of bytes that the service takes: that of its settings, which are read from
the environment if none are given. -/
def limitOf (settings? : Option Settings) (env : Environment) : Int :=
  (settings?.getD (Settings.ofEnvironment env)).maxDocumentBytes

/-- What the service answers to values that are sent by name. -/
def answer (limit : Int) (payload : Entries Sent) : Except Refusal Extraction :=
  extract limit (sourceOf? payload)

def statusOf : Except Refusal Extraction → Nat
  | .ok _ => 200
  | .error refusal => refusal.status

/-- The body of the answer to a document that is not refused. -/
def Extraction.toJson (e : Extraction) : Json :=
  .object [("count", .integer e.count), ("scripts", .array (e.scripts.map Script.toJson))]

/-! ### Languages and version -/

/-- The tokens of languages: the one for tags that name none, and all known ones. -/
structure Languages where
  /-- The token of a tag that names no language. -/
  default : String
  known : List String
  deriving DecidableEq, Repr

def languages : Languages := ⟨Tag.defaultLanguage, SourceType.knownTokens⟩

def programName : String := "mpxscan"

/-- Which build of the program runs. -/
structure Version where
  name : String
  version : String
  build : String
  deriving DecidableEq, Repr

/-- The version of the service: what is installed under the program's name, with the mark of the
build from the environment, where an empty mark counts as none. -/
def version (env : Environment) (installed : String → Option String) : Version where
  name := programName
  version := (installed programName).getD "0.0.0"
  build :=
    let marks := ["GIT_SHA", "APP_BUILD"].filterMap env.get?
    (marks.find? (· != "")).getD ""

end ScriptBlocks.Service
