import ScriptBlocks.Entries

/-!
# Environments

An environment gives values to names.  `Environment.get?` is its view: `set` changes the value of
one name and leaves all others as they are.
-/

namespace ScriptBlocks

/-- The variables of a process, each name with its value. -/
structure Environment where
  /-- The variables, in the order in which their names first came. -/
  entries : Entries String := []
  deriving DecidableEq, Repr

namespace Environment

def get? (env : Environment) (name : String) : Option String := env.entries.lookup name

/-- The value of a name, or `default` if it has none. -/
def getD (env : Environment) (name default : String) : String := (env.get? name).getD default

def set (env : Environment) (name value : String) : Environment :=
  { env with entries := env.entries.put name value }

@[simp] theorem get?_set (env : Environment) (name value x : String) :
    (env.set name value).get? x = if x = name then some value else env.get? x :=
  Entries.lookup_put name value x env.entries

end Environment

end ScriptBlocks
