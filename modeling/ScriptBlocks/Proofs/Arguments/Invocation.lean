import ScriptBlocks.Proofs.Arguments.EnvFileOption

/-!
# Arguments that make an invocation

Options for the environment file before other arguments count where these name no such file, for
the first look as for the reading in full.  Arguments that make an invocation are such options and
a command (`isCommandLine_of_ofArguments`): the invocation takes the environment file from the
options, and so does the first look where no argument of the command misleads it.
-/

namespace ScriptBlocks.Arguments

open Grammar

variable {s : String} {arguments before l : List String} {values : List (Option String)}
  {settings : Settings} {invocation : Invocation}

/-- The arguments are options for the environment file, which name `values` in their order, and then
the name of a command with the arguments `rest`. -/
def IsCommandLine (arguments : List String) (values : List (Option String)) (rest : List String) :
    Prop :=
  ∃ before name, arguments = before ++ name :: rest ∧ EnvFileOptions before values ∧
    (name = "extract" ∨ name = "serve")

/-! ### Options before other arguments -/

theorem EnvFileOptions.envFileGiven_append (h : EnvFileOptions before values) (l : List String) :
    envFileGiven (before ++ l) = (envFileGiven l).map (·.or values.getLast?) := by
  rw [envFileGiven, envFileGiven,
    h.read readsEnvFile_envFileGrammar fun _ => classify_operand_envFileGrammar]
  rcases envFileGrammar.read l with e | R
  · rfl
  · exact congrArg Except.ok List.getLast?_append

theorem EnvFileOptions.ofArguments_append (h : EnvFileOptions before values) (settings : Settings)
    (l : List String) :
    Invocation.ofArguments settings (before ++ l) =
      (Invocation.ofArguments settings l).map fun invocation =>
        { invocation with envFile := invocation.envFile.or values.getLast? } := by
  rw [Invocation.ofArguments, Invocation.ofArguments,
    h.read readsEnvFile_programGrammar fun _ => id]
  rcases programGrammar.read l with e | R
  · rfl
  simp only [Except.map, bind, Except.bind, Reading.after]
  rcases R.operands with _ | _ | ⟨name, rest⟩
  · rfl
  · rfl
  dsimp only
  rcases readCommand settings name rest with e | ⟨command, extras⟩
  · rfl
  dsimp only
  by_cases hextras : R.extras = [] ∧ extras = []
  · rw [if_pos hextras, if_pos hextras, List.getLast?_append]
    rfl
  · rw [if_neg hextras, if_neg hextras]
    rfl

/-! ### Other arguments alone -/

theorem strayEnvFiles_eq_nil (h : ∀ s ∈ l, ¬ envFileStart <+: s.toList) : strayEnvFiles l = [] := by
  refine List.filterMap_eq_nil_iff.2 fun s hs => strayEnvFile?_eq_none fun hnames => ?_
  exact h s (mem_of_mem_beforeSeparator hs) (hnames.1.trans (optionPart_isPrefix s.toList))

/-- A command that leaves nothing over takes an argument that begins like the option for the
environment file only if the argument holds a blank. -/
theorem blank_mem_of_read {α : Type} {g : Grammar α} {R : Reading α} (hg : g.PlainNames)
    (hcommand : g.operands ≠ .command) (hstart : ∀ o ∈ g.options, ¬ envFileStart <+: o.1.toList)
    (h : g.read l = .ok R) (hR : R.extras = []) (hs : s ∈ beforeSeparator l)
    (henv : envFileStart <+: s.toList) : ' ' ∈ s.toList := by
  obtain ⟨ws, hws, hread⟩ := exists_of_bind_eq_ok h
  obtain ⟨w, hmem, hw⟩ := exists_mem_of_words hws hs
  rw [classify_of_envFileStart hg hstart henv] at hw
  by_contra hblank
  rw [if_neg (by simpa using hblank)] at hw
  cases hw
  exact unknown_notMem_of_readFrom hcommand hread hR s hmem

/-- What a command by name makes of its arguments, where it leaves nothing over. -/
theorem blank_mem_of_readCommand {name : String} {command : Command}
    (h : readCommand settings name l = .ok (command, [])) :
    (name = "extract" ∨ name = "serve") ∧
      ∀ s ∈ beforeSeparator l, envFileStart <+: s.toList → ' ' ∈ s.toList := by
  unfold readCommand at h
  split at h
  · next hname =>
    obtain ⟨R, hR, h⟩ := exists_of_bind_eq_ok h
    split at h
    · cases h
    · refine ⟨.inl hname, fun s => blank_mem_of_read plainNames_extractGrammar (by decide) ?_ hR ?_⟩
      · decide
      · exact congrArg Prod.snd (Except.ok.inj h)
  · split at h
    · next hname =>
      obtain ⟨R, hR, h⟩ := exists_of_bind_eq_ok h
      refine ⟨.inr hname, fun s => blank_mem_of_read plainNames_serveGrammar (by decide) ?_ hR ?_⟩
      · decide
      · exact congrArg Prod.snd (Except.ok.inj h)
    · cases h

theorem exists_read_of_ofArguments
    (h : Invocation.ofArguments settings arguments = .ok invocation) :
    ∃ R name rest, programGrammar.read arguments = .ok R ∧ R.extras = [] ∧
      R.operands = some (name :: rest) ∧ invocation.envFile = R.settings.getLast? ∧
      readCommand settings name rest = .ok (invocation.command, []) := by
  obtain ⟨R, hR, h⟩ := exists_of_bind_eq_ok h
  split at h
  · cases h
  · cases h
  · next name rest hoperands =>
    obtain ⟨⟨command, extras⟩, hcommand, h⟩ := exists_of_bind_eq_ok h
    dsimp only at h
    split at h
    · next hextras =>
      cases h
      exact ⟨R, name, rest, hR, hextras.1, hoperands, rfl, hextras.2 ▸ hcommand⟩
    · cases h

/-- After an operand the first look finds what it finds in the rest. -/
theorem envFileGiven_cons {R : Reading (Option String)} (hs : s ≠ "--")
    (hplain : ¬ envFileStart <+: s.toList) (h : programGrammar.read (s :: l) = .ok R)
    (hblank : ∀ t ∈ beforeSeparator l, envFileStart <+: t.toList → ' ' ∈ t.toList) :
    envFileGiven (s :: l) = .ok ((strayEnvFiles l).map some).getLast? := by
  obtain ⟨ws, hws, -⟩ := exists_of_bind_eq_ok h
  have hstray : strayEnvFiles (s :: l) = strayEnvFiles l := by
    rw [strayEnvFiles_cons hs, strayEnvFile?_eq_none fun hnames =>
      hplain (hnames.1.trans (optionPart_isPrefix s.toList))]
    rfl
  obtain ⟨R', hR', hsettings⟩ := settings_of_read hws fun t ht henv => by
    rw [beforeSeparator_cons hs] at ht
    rcases List.mem_cons.1 ht with rfl | ht
    · exact absurd henv hplain
    · exact hblank t ht henv
  rw [envFileGiven, hR', ← hstray, ← hsettings]
  rfl

/-- Arguments that make an invocation are those of a command after options for the environment
file.  The invocation takes the file from the options alone, the first look also from the arguments
of the command. -/
theorem isCommandLine_of_ofArguments
    (h : Invocation.ofArguments settings arguments = .ok invocation) :
    ∃ values rest, IsCommandLine arguments values rest ∧ invocation.envFile = values.getLast? ∧
      envFileGiven arguments =
        .ok (((strayEnvFiles rest).map some).getLast?.or values.getLast?) := by
  obtain ⟨R, name, rest, hR, hextras, hoperands, henvFile, hcommand⟩ := exists_read_of_ofArguments h
  obtain ⟨hname, hblank⟩ := blank_mem_of_readCommand hcommand
  have hsep : name ≠ "--" := by rintro rfl; simp at hname
  obtain ⟨before, rfl, hbefore⟩ := exists_envFileOptions_of_read hR hextras hoperands hsep
  refine ⟨R.settings, rest, ⟨before, name, rfl, hbefore, hname⟩, henvFile, ?_⟩
  have hplain : ¬ envFileStart <+: name.toList := by rcases hname with rfl | rfl <;> decide
  rw [hbefore.read readsEnvFile_programGrammar fun _ => id] at hR
  obtain ⟨R', hR'⟩ : ∃ R', programGrammar.read (name :: rest) = .ok R' := by
    rcases hread : programGrammar.read (name :: rest) with e | R'
    · rw [hread] at hR
      cases hR
    · exact ⟨R', rfl⟩
  rw [hbefore.envFileGiven_append, envFileGiven_cons hsep hplain hR' hblank]
  rfl

end ScriptBlocks.Arguments
