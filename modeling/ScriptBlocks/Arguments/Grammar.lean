import ScriptBlocks.Text.DecimalDigit

/-!
# Option grammars

A grammar says which options a command takes and what it makes of its operands.  `Grammar.classify`
tells what one argument is: an operand, an option with or without a value of its own, or an
argument that looks like an option and is none.  A long option may be cut short as long as only
one fits, and a value may be joined to it with `=`; short options may be run together.
-/

namespace ScriptBlocks.Arguments

/-- Why reading arguments stops before a command runs. -/
inductive Stop where
  /-- The arguments do not fit the grammar. -/
  | usage
  | help
  deriving DecidableEq, Repr

def Stop.status : Stop → Nat
  | usage => 2
  | help => 0

/-- What an option does; `α` is the type of what options set. -/
inductive Action (α : Type) where
  | help
  /-- Sets something. -/
  | flag (setting : α)
  /-- Takes a value and sets what `read` makes of it, if it accepts it.  The separator `--` in the
  place of a value is taken for no value. -/
  | value (read : Option String → Option α)

/-- What a command makes of its operands. -/
inductive Operands where
  | none
  /-- It takes those that stand together first, one at least. -/
  | some
  /-- The first is the name of a command, which takes all that follows. -/
  | command
  deriving DecidableEq, Repr

/-- The options of a command, by name, and what it makes of its operands. -/
structure Grammar (α : Type) where
  /-- The options, each under its name with the leading dashes. -/
  options : List (String × Action α)
  operands : Operands

/-- What an argument is. -/
inductive Word (α : Type) where
  | operand (text : String)
  /-- The first `--`, after which all arguments are operands. -/
  | separator
  /-- An option under its full name, with the text that is joined to it, if any is. -/
  | option (text name : String) (action : Action α) (joined : Option String)
  /-- An argument that looks like an option and is none. -/
  | unknown (text : String)

def Word.text {α : Type} : Word α → String
  | operand text => text
  | separator => "--"
  | option text _ _ _ => text
  | unknown text => text

namespace Grammar

variable {α : Type}

/-- A reading of an argument as an option: the full name, the action and the text joined to it. -/
abbrev Match (α : Type) := String × Action α × Option String

/-- The part of an argument before its first `=` and the part after it, if it has one. -/
def splitJoined? (s : List Char) : Option (List Char × List Char) :=
  let (left, rest) := s.span (· != '=')
  match rest with
  | [] => none
  | _ :: right => some (left, right)

/-- The readings of an argument with two leading dashes as the beginning of an option's name. -/
def longMatches (g : Grammar α) (s : List Char) : List (Match α) :=
  let (start, joined) := match splitJoined? s with
    | some (left, right) => (left, some (String.ofList right))
    | none => (s, none)
  g.options.filterMap fun (name, action) =>
    if start.isPrefixOf name.toList then some (name, action, joined) else none

/-- The readings of an argument with one leading dash: as a short option with text joined to it, or
as the beginning of an option's name. -/
def shortMatches (g : Grammar α) (s : List Char) : List (Match α) :=
  g.options.filterMap fun (name, action) =>
    if name.toList = s.take 2 then some (name, action, some (String.ofList (s.drop 2)))
    else if s.isPrefixOf name.toList then some (name, action, none)
    else none

/-- Whether the text is one decimal digit or more, of any script. -/
def isDigits (s : List Char) : Bool := !s.isEmpty && s.all fun c => (Text.digitValue? c).isSome

/-- Whether an argument is a negative number, which is an operand: a dash, and then digits, or
digits after a point with or without digits before it.  A line feed may end it. -/
def isNegativeNumber (s : List Char) : Bool :=
  match s with
  | '-' :: s =>
    let s := if s.getLast? = some '\n' then s.dropLast else s
    let (whole, fraction) := s.span (· != '.')
    match fraction with
    | [] => isDigits whole
    | _ :: fraction => (whole.isEmpty || isDigits whole) && isDigits fraction
  | _ => false

/-- The exact reading of an argument: the whole of it, or the part before its first `=`, is the
name of an option. -/
def exactMatch? (g : Grammar α) (s : String) : Option (Match α) :=
  match g.options.lookup s with
  | some action => some (s, action, none)
  | none => do
    let (left, right) ← splitJoined? s.toList
    let action ← g.options.lookup (String.ofList left)
    return (String.ofList left, action, some (String.ofList right))

/-- What an argument before any `--` is.  One that begins several options' names is refused. -/
def classify (g : Grammar α) (s : String) : Except Stop (Word α) :=
  match s.toList with
  | '-' :: second :: rest =>
    match g.exactMatch? s with
    | some (name, action, joined) => .ok (.option s name action joined)
    | none =>
      let cs := '-' :: second :: rest
      match if second = '-' then g.longMatches cs else g.shortMatches cs with
      | [(name, action, joined)] => .ok (.option s name action joined)
      | _ :: _ :: _ => .error .usage
      | [] =>
        if isNegativeNumber cs || cs.contains ' ' then .ok (.operand s) else .ok (.unknown s)
  | _ => .ok (.operand s)

def words (g : Grammar α) : List String → Except Stop (List (Word α))
  | [] => .ok []
  | s :: rest =>
    if s = "--" then .ok (.separator :: rest.map .operand)
    else do
      let word ← g.classify s
      let words ← g.words rest
      return word :: words

end Grammar

end ScriptBlocks.Arguments
