import ScriptBlocks.FileSystem
import ScriptBlocks.Text.LowerCase

/-!
# Walking directories

`Walk.ofArguments` turns paths as they are given into the paths of the files to read.  A path to a
directory stands for the files at any depth below it whose suffix, in lower case, is one of the
given suffixes, in the order of their paths; any other path stands for itself, whether or not it
leads to anything.  A walk stops at a path that cannot be looked up.  If it is that of a directory
below a given path, no file below that path is given; if it is that of a file, the files that come
before it are.
-/

namespace ScriptBlocks

mutual

/-- The steps from a node to each file at any depth below it. -/
def Node.files : Node → List (List String)
  | .file _ => [[]]
  | .directory entries => filesBelow entries

/-- The steps from a directory with these entries to each file at any depth below it. -/
def filesBelow : List (String × Node) → List (List String)
  | [] => []
  | (name, node) :: rest => node.files.map (name :: ·) ++ filesBelow rest

end

mutual

/-- The steps from a node to each directory at any depth, the node itself included, where a
directory comes before those below it. -/
def Node.directories : Node → List (List String)
  | .file _ => []
  | .directory entries => [] :: directoriesBelow entries

/-- The steps from a directory with these entries to each directory at any depth below it. -/
def directoriesBelow : List (String × Node) → List (List String)
  | [] => []
  | (name, node) :: rest => node.directories.map (name :: ·) ++ directoriesBelow rest

end

/-- The paths of files, up to where a path cannot be looked up. -/
structure Walk where
  paths : List Path := []
  /-- Why the walk stops after them, if it does. -/
  error? : Option FileError := none
  deriving DecidableEq, Repr

namespace Walk

/-- One walk and then another, unless the first one stops. -/
def append (first second : Walk) : Walk :=
  match first.error? with
  | some _ => first
  | none => { second with paths := first.paths ++ second.paths }

instance : Append Walk := ⟨append⟩

/-- Whether a file is picked up in a directory: its suffix, in lower case, is one of those given. -/
def picksUp (extensions : List String) (p : Path) : Bool :=
  extensions.contains (String.ofList (Text.lowerCase p.suffix))

/-- The error of the first path that is too long to be looked up, if there is one. -/
def tooLong? (paths : List Path) : Option FileError :=
  (paths.find? FileSystem.isTooLong).map fun p => PathFault.nameTooLong.toError p

/-- The files at any depth below the directory at path `p`, in their order. -/
def filesOf (p : Path) (entries : List (String × Node)) : List Path :=
  ((filesBelow entries).map p.extend).mergeSort Path.le

/-- The paths that are picked up below the directory at path `p`.  All directories are looked into
before the first file is looked at; the files are then looked at in their order. -/
def below (extensions : List String) (p : Path) (entries : List (String × Node)) : Walk :=
  match tooLong? ((directoriesBelow entries).map p.extend) with
  | some error => { error? := some error }
  | none =>
    let files := filesOf p entries
    { paths := (files.takeWhile (!FileSystem.isTooLong ·)).filter (picksUp extensions)
      error? := tooLong? files }

/-- The paths that one path stands for. -/
def ofPath (fs : FileSystem) (extensions : List String) (p : Path) : Walk :=
  match fs.directory? p with
  | .error error => { error? := some error }
  | .ok (some entries) => below extensions p entries
  | .ok none => { paths := [p] }

/-- The paths that paths as they are given stand for, one after the other. -/
def ofArguments (fs : FileSystem) (extensions : List String) : List String → Walk
  | [] => {}
  | argument :: rest =>
    ofPath fs extensions (Path.ofString argument) ++ ofArguments fs extensions rest

end Walk

end ScriptBlocks
