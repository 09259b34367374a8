/-!
# Paths

A path names a file by the steps that lead to it.  Reading a path from a string drops what changes
nothing: repeated slashes, a slash at the end, and steps to `.`; a step to `..` stays.
-/

namespace ScriptBlocks

/-- Where a path begins. -/
inductive Anchor where
  | relative
  | root
  /-- At the outermost directory, written with exactly two slashes. -/
  | doubleRoot
  deriving DecidableEq, Repr

/-- How an anchor is written. -/
def Anchor.text : Anchor → String
  | relative => ""
  | root => "/"
  | doubleRoot => "//"

/-- A way to a file or directory. -/
structure Path where
  anchor : Anchor := .relative
  /-- The steps from there, none of them empty or `.`. -/
  steps : List String
  deriving DecidableEq, Repr

namespace Path

/-- The anchor of a string, by its slashes at the start. -/
def anchorOf (s : List Char) : Anchor :=
  match (s.takeWhile (· == '/')).length with
  | 0 => .relative
  | 2 => .doubleRoot
  | _ => .root

def splitSlashes (s : List Char) : List (List Char) := s.splitOn '/'

/-- The path that a string names. -/
def ofString (s : String) : Path where
  anchor := anchorOf s.toList
  steps := (((splitSlashes s.toList).map String.ofList).filter fun step => step != "" && step != ".")

/-- How a path is written. -/
def toString (p : Path) : String :=
  let s := p.anchor.text ++ "/".intercalate p.steps
  if s = "" then "." else s

/-- The components by which paths are ordered: the anchor, if there is one, and the steps. -/
def components (p : Path) : List String :=
  if p.anchor = .relative then p.steps else p.anchor.text :: p.steps

/-- Whether `p` comes before `q` or is at the same place in the order of paths. -/
def le (p q : Path) : Bool := !decide (q.components < p.components)

/-- The last step, or the empty string. -/
def name (p : Path) : String := p.steps.getLast?.getD ""

/-- The characters before the last dot of a file name and those after it. -/
def splitLastDot? (name : List Char) : Option (List Char × List Char) :=
  let (after, before) := name.reverse.span (· != '.')
  match before with
  | [] => none
  | _ :: before => some (before.reverse, after.reverse)

/-- The suffix of a file name: its last dot and what follows.  A name that begins or ends with its
last dot has none. -/
def suffixOf (name : List Char) : List Char :=
  match splitLastDot? name with
  | some (before, after) => if before.isEmpty || after.isEmpty then [] else '.' :: after
  | none => []

def suffix (p : Path) : List Char := suffixOf p.name.toList

/-- The path with further steps. -/
def extend (p : Path) (steps : List String) : Path := { p with steps := p.steps ++ steps }

end Path

end ScriptBlocks
