import ScriptBlocks.Command

/-!
# The program

The program looks at the files that its arguments may name, runs the command on them and prints
what it comes to.
-/

namespace ScriptBlocks.Main

def variableNames : List String :=
  ["ENV_FILE", "MPXSCAN_HOST", "MPXSCAN_PORT", "MPXSCAN_MAX_DOCUMENT_BYTES", "MPXSCAN_LOG_LEVEL",
   "MPXSCAN_EXTENSIONS"]

/-- The variables of the process that the program reads. -/
def environment : IO Environment :=
  variableNames.foldlM (fun env name => do
    match ← IO.getEnv name with
    | some value => return env.set name value
    | none => return env) {}

/-- The file or directory of the system at a path, with all that is below it. -/
partial def load (path : String) : IO (Option Node) := do
  try
    let real ← IO.FS.realPath path
    if ← real.isDir then
      let mut entries := []
      for entry in ← real.readDir do
        if let some node ← load entry.path.toString then
          entries := entries ++ [(entry.fileName, node)]
      return some (.directory entries)
    else
      return some (.file (← IO.FS.readBinFile real).toList)
  catch _ => return none

/-- The steps of a path from the outermost directory, with those to `..` taken. -/
def plainSteps (cwd : List String) (p : Path) : List String :=
  let steps := if p.anchor = .relative then cwd ++ p.steps else p.steps
  steps.foldl (fun done step => if step = ".." then done.dropLast else done ++ [step]) []

/-- Adds to a tree what the system has at a path and, as directories, at each step on the way. -/
def survey (cwd : List String) (tree : Node) (name : String) : IO Node := do
  let p := Path.ofString name
  let mut tree := tree
  for n in List.range (p.steps.length + 1) do
    let way : Path := { p with steps := p.steps.take n }
    try
      let real ← IO.FS.realPath way.toString
      if ← real.isDir then tree := (Node.directory []).graft (plainSteps cwd way) tree
    catch _ => pure ()
  match ← load p.toString with
  | some node => return node.graft (plainSteps cwd p) tree
  | none => return tree

/-- The directory to which steps lead from `here`, with the directories around it. -/
def descend (here : Node) (around : List Node) : List String → FileSystem
  | [] => { here, around }
  | step :: steps => descend (entryOrEmpty here.entries step) (here :: around) steps

/-- The names that an argument may hold: the whole of it and the part after `=`. -/
def namesIn (argument : String) : List String :=
  match Arguments.Grammar.splitJoined? argument.toList with
  | some (_, value) => [argument, String.ofList value]
  | none => [argument]

/-- The part of the system's files that the arguments and the environment may name. -/
def fileSystem (env : Environment) (arguments : List String) : IO FileSystem := do
  let cwd := (Path.ofString (← IO.FS.realPath ".").toString).steps
  let names := (Command.envFileName env none).toList ++ arguments.flatMap namesIn
  let root := (Node.directory []).graft cwd (.directory [])
  return descend (← names.foldlM (survey cwd) root) [] cwd

/-- How the program is used. -/
def usage : String :=
  "usage: mpxscan [-h] [--env-file ENV_FILE] extract [-h] [--json] paths [paths ...]\n" ++
  "       mpxscan [-h] [--env-file ENV_FILE] serve [-h] [--host HOST] [--port PORT] [--reload]\n"

def report (outcome : Command.Outcome) : IO UInt32 := do
  IO.print outcome.stdout
  IO.eprint outcome.stderr
  if let some request := outcome.serve then
    let host := request.host.getD ""
    let port := (request.port.map toString).getD ""
    IO.println s!"serve {request.target} at {host}:{port}"
  match outcome.ending with
  | .stopped .help =>
    IO.print usage
    return UInt32.ofNat Arguments.Stop.help.status
  | .stopped .usage =>
    IO.eprint usage
    return UInt32.ofNat Arguments.Stop.usage.status
  | .finished status => return UInt32.ofNat status
  | .failed error =>
    IO.eprintln error.message
    return 1

end ScriptBlocks.Main

def main (arguments : List String) : IO UInt32 := do
  let env ← ScriptBlocks.Main.environment
  let fs ← ScriptBlocks.Main.fileSystem env arguments
  ScriptBlocks.Main.report (ScriptBlocks.Command.run fs env arguments)
