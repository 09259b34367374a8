import ScriptBlocks.Command
import ScriptBlocks.Proofs.Arguments.Invocation

/-!
# The choice of the environment file

The environment file is loaded by what the first look at the arguments gives, and then the
arguments are read in full.  On a run that comes to a command (`Command.Reaches`) the two take the
same file from the options before the name of the command; but the first look goes on to the
arguments of the command, and an option that it finds there, which is an operand or the value of an
option to the command, counts for more (`Command.exists_reaches_of_isOfCommand`).
-/

namespace ScriptBlocks.Command

open Arguments

/-- It is a command that ends the run, be it with a status or with an error. -/
def Ending.IsOfCommand : Ending → Prop
  | stopped _ => False
  | finished _ => True
  | failed (.envFile _) => False
  | failed (.path _) => True

/-- The run comes to a command: the environment file that the first look gives is loaded, and the
arguments make an invocation in the settings of the environment that comes of it. -/
structure Reaches (fs : FileSystem) (env : Environment) (arguments : List String)
    (given : Option (Option String)) (invocation : Invocation) : Prop where
  given_eq : envFileGiven arguments = .ok given
  error?_eq : (EnvFile.load fs env (envFileName env given)).error? = none
  invocation_eq : Invocation.ofArguments
    (Settings.ofEnvironment (EnvFile.load fs env (envFileName env given)).environment) arguments =
      .ok invocation

variable {fs : FileSystem} {env : Environment} {arguments : List String}
  {given : Option (Option String)} {invocation : Invocation}

theorem isOfCommand_dispatch (fs : FileSystem) (settings : Settings) (command : Command) :
    (dispatch fs settings command).ending.IsOfCommand := by
  cases command with
  | serve request => trivial
  | extract paths json =>
    simp only [dispatch, extract]
    split <;> trivial

theorem isOfCommand_run_iff : (run fs env arguments).ending.IsOfCommand ↔
    ∃ given invocation, Reaches fs env arguments given invocation := by
  constructor
  · intro h
    unfold run at h
    split at h
    · cases h
    next given hgiven =>
    dsimp only at h
    split at h
    · cases h
    next herror =>
    unfold runLoaded at h
    dsimp only at h
    split at h
    · cases h
    next invocation hinvocation => exact ⟨given, invocation, hgiven, herror, hinvocation⟩
  · rintro ⟨given, invocation, hgiven, herror, hinvocation⟩
    simp only [run, hgiven, herror, runLoaded, hinvocation]
    exact isOfCommand_dispatch fs _ _

/-- A run that comes to a command loads the environment file that the last option before the
command names, unless the first look finds another one in the arguments of the command. -/
theorem exists_reaches_of_isOfCommand (h : (run fs env arguments).ending.IsOfCommand) :
    ∃ values rest given invocation, IsCommandLine arguments values rest ∧
      Reaches fs env arguments given invocation ∧ invocation.envFile = values.getLast? ∧
      given = ((strayEnvFiles rest).map some).getLast?.or invocation.envFile ∧
      ((∀ s ∈ rest, ¬ envFileStart <+: s.toList) → given = invocation.envFile) := by
  obtain ⟨given, invocation, hreaches⟩ := isOfCommand_run_iff.1 h
  obtain ⟨values, rest, hline, henvFile, hgiven⟩ :=
    isCommandLine_of_ofArguments hreaches.invocation_eq
  obtain rfl := Except.ok.inj (hreaches.given_eq.symm.trans hgiven)
  refine ⟨values, rest, _, invocation, hline, hreaches, henvFile, by rw [henvFile], fun hplain => ?_⟩
  rw [strayEnvFiles_eq_nil hplain, henvFile]
  rfl

/-- Environment files in the working directory, one of them with a blank in its name. -/
def blankName : FileSystem where
  here := .directory [("e", .file (Utf8.encode "MPXSCAN_PORT=2".toList)),
    ("a b", .file (Utf8.encode "MPXSCAN_PORT=1".toList))]

/-- Arguments with the value of an option of the service that the first look takes for an option. -/
def misleading : List String := ["--env=e", "serve", "--host", "--env-file=a b"]

theorem reaches_misleading : Reaches blankName {} misleading (some (some "a b"))
    ⟨some (some "e"), .serve { host := some "--env-file=a b", port := some 1 }⟩ where
  given_eq := by decide
  error?_eq := by with_unfolding_all decide
  invocation_eq := by with_unfolding_all decide

theorem exists_reaches_misleading :
    ∃ values rest given invocation, IsCommandLine misleading values rest ∧
      Reaches blankName {} misleading given invocation ∧ invocation.envFile = values.getLast? ∧
      given = ((strayEnvFiles rest).map some).getLast?.or invocation.envFile ∧
      ((∀ s ∈ rest, ¬ envFileStart <+: s.toList) → given = invocation.envFile) :=
  exists_reaches_of_isOfCommand (isOfCommand_run_iff.2 ⟨_, _, reaches_misleading⟩)

/-- The value of an option of the service is loaded as an environment file. -/
theorem not_envFileName_given_eq :
    ¬ ∀ (fs : FileSystem) (env : Environment) (arguments : List String)
      (given : Option (Option String)) (invocation : Invocation),
      Reaches fs env arguments given invocation →
        envFileName env given = envFileName env invocation.envFile :=
  fun h => absurd (h _ _ _ _ _ reaches_misleading) (by decide)

end ScriptBlocks.Command
