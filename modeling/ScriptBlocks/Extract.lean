import ScriptBlocks.Entries
import ScriptBlocks.Json
import ScriptBlocks.Log
import ScriptBlocks.Scan
import ScriptBlocks.TextFile
import ScriptBlocks.Walk

/-!
# Extraction from files

`Extract.find` reads the files that paths stand for, and finds their scripts.  What it finds,
`Findings`, has three views: the lines of the listing, the report by path, and the lines of the log
with the files that could not be read.  The exit status tells whether all files could be read.
-/

namespace ScriptBlocks

/-- A file with the scan of its text, or with the reason why it has no text. -/
structure Finding where
  path : Path
  /-- The passes of the scan. -/
  result : Except TextFile.ReadError (List Scan.Pass)

namespace Finding

/-- Reads the file that a path leads to and scans its text. -/
def ofPath (fs : FileSystem) (p : Path) : Finding :=
  ⟨p, (TextFile.read fs p).map fun text => Scan.passes text Resolver.known {}⟩

/-- Whether the file could not be read. -/
def isFailure (f : Finding) : Bool := !f.result.isOk

def scripts (f : Finding) : List Script :=
  match f.result with
  | .ok passes => Scan.scripts passes
  | .error _ => []

/-- The file in the listing: a line for each script with its range and type. -/
def listing (f : Finding) : List String :=
  f.scripts.map fun s => s!"{f.path.toString}:{s.start}-{s.stop} {s.sourceType.label}"

/-- What the scan of the file logs. -/
def records (f : Finding) : List LogRecord :=
  match f.result with
  | .ok passes =>
    (Scan.messages passes).map (⟨.debug, scanLogger, ·⟩) ++
      [⟨.debug, commandLogger,
        s!"{f.path.toString}: {(Scan.scripts passes).length} script block(s)"⟩]
  | .error _ => []

/-- The lines about the file in a log that is set to `level`, or the reason why it could not be
read. -/
def notices (level : Level) (f : Finding) : List String :=
  match f.result with
  | .ok _ => (f.records.filter (·.shownAt level)).map LogRecord.line
  | .error error => [s!"{f.path.toString}: {error.message}"]

end Finding

/-- What is found in files, up to where a path cannot be used. -/
structure Findings where
  files : List Finding
  /-- Why extraction stops after them, if it does. -/
  error? : Option FileError := none

namespace Extract

/-- Reads files up to the first path that cannot be opened at all; `last?` is the error that comes
after the last of them. -/
def readAll (fs : FileSystem) (last? : Option FileError) : List Path → Findings
  | [] => { files := [], error? := last? }
  | p :: rest =>
    let f := Finding.ofPath fs p
    match f.result with
    | .error (.file .embeddedNul) => { files := [], error? := some .embeddedNul }
    | _ =>
      let found := readAll fs last? rest
      { found with files := f :: found.files }

/-- What is found in the files that paths as they are given stand for. -/
def find (fs : FileSystem) (extensions arguments : List String) : Findings :=
  let walk := Walk.ofArguments fs extensions arguments
  readAll fs walk.error? walk.paths

end Extract

namespace Findings

def listing (l : Findings) : List String := l.files.flatMap Finding.listing

def notices (level : Level) (l : Findings) : List String := l.files.flatMap (Finding.notices level)

/-- The exit status: one if a file could not be read, else zero. -/
def status (l : Findings) : Nat := if l.files.any Finding.isFailure then 1 else 0

/-- The scripts of each file that could be read, by its path; of two files with one path the later
counts. -/
def report (l : Findings) : Entries (List Script) :=
  (l.files.filter (!·.isFailure)).foldl (fun report f => report.put f.path.toString f.scripts) []

end Findings

def Extract.reportJson (report : Entries (List Script)) : Json :=
  .object (report.map fun (path, scripts) => (path, .array (scripts.map Script.toJson)))

end ScriptBlocks
