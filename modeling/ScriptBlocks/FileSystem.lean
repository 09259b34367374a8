import ScriptBlocks.Path
import ScriptBlocks.Text.Quoted

/-!
# File systems

A file system is the working directory with the directories around it.  `FileSystem.find` follows
a path; the ways in which it fails are the causes in `PathFault`, of which a query about a path
passes on only what it cannot answer (`FileSystem.reaches`, `FileSystem.directory?`), while reading
a file passes on all of them (`FileSystem.read`).
-/

namespace ScriptBlocks

/-- A file or a directory. -/
inductive Node where
  | file (bytes : List UInt8)
  /-- A directory with its entries, in the order in which they are listed. -/
  | directory (entries : List (String × Node))

/-- The entries of a node; a file has none. -/
def Node.entries : Node → List (String × Node)
  | file _ => []
  | directory entries => entries

/-- The entry `name` as it is in the entries, or an empty directory if there is none. -/
def entryOrEmpty (entries : List (String × Node)) (name : String) : Node :=
  (entries.lookup name).getD (.directory [])

/-- The tree with `node` where the steps lead, and with directories on the way to it.  A directory
does not take the place of another one. -/
def Node.graft (node : Node) : List String → Node → Node
  | [], .directory entries =>
    match node with
    | .file _ => node
    | .directory new => .directory (entries ++ new.filter fun e => (entries.lookup e.1).isNone)
  | [], .file _ => node
  | step :: steps, tree =>
    let grafted := graft node steps (entryOrEmpty tree.entries step)
    .directory (tree.entries.filter (·.1 != step) ++ [(step, grafted)])

/-- The working directory and the directories around it. -/
structure FileSystem where
  here : Node
  /-- The directories around it, innermost first. -/
  around : List Node := []

/-- Why a path leads nowhere. -/
inductive PathFault where
  /-- A NUL character cannot stand in a path. -/
  | embeddedNul
  | notFound
  /-- A step is taken from a file. -/
  | notDirectory
  /-- The path, or one of its steps, is longer than can be looked up. -/
  | nameTooLong
  deriving DecidableEq, Repr

/-- Why a file operation fails. -/
inductive FileError where
  | embeddedNul
  | notFound (path : String)
  | notDirectory (path : String)
  | isDirectory (path : String)
  | nameTooLong (path : String)
  deriving DecidableEq, Repr

/-- The error in words; those of the system have a number. -/
def FileError.message : FileError → String
  | embeddedNul => "embedded null byte"
  | notFound path => "[Errno 2] No such file or directory: " ++ Text.quoted path
  | notDirectory path => "[Errno 20] Not a directory: " ++ Text.quoted path
  | isDirectory path => "[Errno 21] Is a directory: " ++ Text.quoted path
  | nameTooLong path => "[Errno 36] File name too long: " ++ Text.quoted path

def PathFault.toError (path : Path) : PathFault → FileError
  | embeddedNul => .embeddedNul
  | notFound => .notFound path.toString
  | notDirectory => .notDirectory path.toString
  | nameTooLong => .nameTooLong path.toString

namespace FileSystem

def maxStepBytes : Nat := 255

def maxPathBytes : Nat := 4095

def isTooLong (p : Path) : Bool := maxPathBytes < p.toString.utf8ByteSize

/-- Follows steps from `here`, inside the directories `around` it, innermost first.  The
outermost directory is its own parent. -/
def follow (here : Node) (around : List Node) : List String → Except PathFault Node
  | [] => .ok here
  | step :: steps =>
    match here with
    | .file _ => .error .notDirectory
    | .directory entries =>
      if step = ".." then
        match around with
        | [] => follow here [] steps
        | parent :: around => follow parent around steps
      else if maxStepBytes < step.utf8ByteSize then .error .nameTooLong
      else
        match entries.lookup step with
        | none => .error .notFound
        | some node => follow node (here :: around) steps

def outermost (fs : FileSystem) : Node := fs.around.getLast?.getD fs.here

/-- What a path leads to. -/
def find (fs : FileSystem) (p : Path) : Except PathFault Node :=
  if p.toString.toList.contains '\x00' then .error .embeddedNul
  else if isTooLong p then .error .nameTooLong
  else if p.anchor = .relative then follow fs.here fs.around p.steps
  else follow fs.outermost [] p.steps

/-- What a path leads to, where a path that leads to nothing is no error. -/
def find? (fs : FileSystem) (p : Path) : Except FileError (Option Node) :=
  match fs.find p with
  | .ok node => .ok (some node)
  | .error .nameTooLong => .error (PathFault.nameTooLong.toError p)
  | .error _ => .ok none

def reaches (fs : FileSystem) (p : Path) : Except FileError Bool := do
  return (← fs.find? p).isSome

/-- The entries of the directory that the path leads to, or `none` if it leads to none. -/
def directory? (fs : FileSystem) (p : Path) : Except FileError (Option (List (String × Node))) := do
  match ← fs.find? p with
  | some (.directory entries) => return some entries
  | _ => return none

/-- The bytes of the file that the path leads to. -/
def read (fs : FileSystem) (p : Path) : Except FileError (List UInt8) :=
  match fs.find p with
  | .error fault => .error (fault.toError p)
  | .ok (.directory _) => .error (.isDirectory p.toString)
  | .ok (.file bytes) => .ok bytes

end FileSystem

end ScriptBlocks
