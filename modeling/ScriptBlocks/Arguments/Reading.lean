import ScriptBlocks.Arguments.Grammar

/-!
# Reading arguments

`Grammar.read` goes through the arguments of a command and gives, as a `Reading`, what its options
set in their order, its operands, and the arguments that are left over.  Operands that stand
together are a run; a command that takes operands takes the first run, and the runs after it are
left over.
-/

namespace ScriptBlocks.Arguments

variable {α : Type}

/-- What arguments come to. -/
structure Reading (α : Type) where
  /-- What the options set, in their order. -/
  settings : List α := []
  /-- The operands, once they are taken. -/
  operands : Option (List String) := none
  /-- The arguments that are left over. -/
  extras : List String := []

/-- An option on which reading acts: its action, with the value that it takes if it takes one. -/
structure Use (α : Type) where
  action : Action α
  value : String := ""

/-- What stands as the value of an option, where the separator is no value. -/
def givenValue (s : String) : Option String := if s = "--" then none else some s

namespace Reading

/-- Acts on one option. -/
def apply (r : Reading α) (use : Use α) : Except Stop (Reading α) :=
  match use.action with
  | .help => .error .help
  | .flag setting => .ok { r with settings := r.settings ++ [setting] }
  | .value read =>
    match read (givenValue use.value) with
    | some setting => .ok { r with settings := r.settings ++ [setting] }
    | none => .error .usage

def applyAll (r : Reading α) : List (Use α) → Except Stop (Reading α)
  | [] => .ok r
  | use :: uses => do (← r.apply use).applyAll uses

/-- Whether a run of words holds an operand, and not just the separator. -/
def holdsOperand (run : List String) : Bool := run ≠ [] && run ≠ ["--"]

/-- Ends a run of words that holds no option.  A command that still takes operands takes the
run, less its separator; otherwise the run is left over. -/
def endRun (operands : Operands) (r : Reading α) (run : List String) : Reading α :=
  if operands = .some && r.operands.isNone && holdsOperand run then
    { r with operands := some (run.erase "--") }
  else { r with extras := r.extras ++ run }

end Reading

/-- Options that stand in one argument: those on which reading acts, and whether the last of them
still needs a value, which is then the next argument. -/
structure Group (α : Type) where
  /-- The options whose values, if they take any, are there. -/
  uses : List (Use α) := []
  /-- The option that needs a value. -/
  pending : Option (Action α) := none

namespace Group

/-- An option with no text joined to it. -/
def alone (action : Action α) : Group α :=
  match action with
  | .value _ => { pending := some action }
  | _ => { uses := [{ action }] }

/-- An option with text joined to it.  What is joined to a short option that takes no value, with or
without `=`, is a run of further short options. -/
def joined (g : Grammar α) (short : Bool) (action : Action α) :
    List Char → Except Stop (Group α)
  | [] =>
    match action with
    | .value _ => .ok { uses := [{ action }] }
    | _ => .error .usage
  | c :: rest =>
    match action with
    | .value _ => .ok { uses := [{ action, value := String.ofList (c :: rest) }] }
    | _ =>
      if short then
        match g.options.lookup (String.ofList ['-', c]) with
        | none => .error .usage
        | some next => do
          let group ← if rest.isEmpty then .ok (alone next) else joined g short next rest
          return { group with uses := { action } :: group.uses }
      else .error .usage

def isShort (name : String) : Bool := name.toList[1]? != some '-'

def ofOption (g : Grammar α) (name : String) (action : Action α) (text : Option String) :
    Except Stop (Group α) :=
  match text with
  | none => .ok (alone action)
  | some text => joined g (isShort name) action text.toList

end Group

namespace Grammar

/-- Reads words on from `r`.  The options in `group` have been met and not been acted on, for want
of a value; `run` is the run of words read last. -/
def readFrom (g : Grammar α) (r : Reading α) (group : Group α) (run : List String) :
    List (Word α) → Except Stop (Reading α)
  | [] =>
    match group.pending with
    | some _ => .error .usage
    | none => .ok (r.endRun g.operands run)
  | word :: words =>
    match group.pending, word with
    | some action, .operand text => do
      let r ← r.applyAll (group.uses ++ [{ action, value := text }])
      g.readFrom r {} [] words
    | some _, _ => .error .usage
    | none, .operand text =>
      if g.operands = .command && r.operands.isNone then
        .ok { r with operands := some (run ++ text :: words.map Word.text) }
      else g.readFrom r {} (run ++ [text]) words
    | none, .separator => g.readFrom r {} (run ++ ["--"]) words
    | none, .unknown text =>
      let r := r.endRun g.operands run
      g.readFrom { r with extras := r.extras ++ [text] } {} [] words
    | none, .option _ name action text => do
      let r := r.endRun g.operands run
      let group ← Group.ofOption g name action text
      match group.pending with
      | some _ => g.readFrom r group [] words
      | none =>
        let r ← r.applyAll group.uses
        g.readFrom r {} [] words

/-- Reads the arguments of a command. -/
def read (g : Grammar α) (arguments : List String) : Except Stop (Reading α) := do
  g.readFrom {} {} [] (← g.words arguments)

end Grammar

end ScriptBlocks.Arguments
