import ScriptBlocks.Proofs.Arguments.Reading
import ScriptBlocks.Proofs.Arguments.Words

/-!
# The option for the environment file

Two readings of the arguments look for the option that names the environment file: the first look
(`envFileGrammar`), which knows no other option, and the reading in full (`programGrammar`), which
takes it before the name of the command only.  `EnvFileOptions` lists such options with what they
name.  Both readings take them alike at the start of the arguments (`EnvFileOptions.read`), and a
command is reached after nothing else (`exists_envFileOptions_of_read`).  In what follows, the
first look finds the option only in arguments that hold a blank (`settings_of_read`).
-/

namespace ScriptBlocks.Arguments

open Grammar

/-- The name of the option up to the letter that tells it from other options. -/
def envFileStart : List Char := ['-', '-', 'e']

/-- The text is the name of the option for the environment file, or a beginning of the name that
abbreviates it. -/
def NamesEnvFile (option : List Char) : Prop :=
  envFileStart <+: option ∧ option <+: envFileOption.1.toList

instance (option : List Char) : Decidable (NamesEnvFile option) :=
  inferInstanceAs (Decidable (_ ∧ _))

/-- Arguments that are options for the environment file, with what each of them names. -/
inductive EnvFileOptions : List String → List (Option String) → Prop
  | none : EnvFileOptions [] []
  /-- An option with its value joined to it. -/
  | joined {option value : String} {rest : List String} {values : List (Option String)} :
    NamesEnvFile option.toList → EnvFileOptions rest values →
      EnvFileOptions ((option ++ "=" ++ value) :: rest) (givenValue value :: values)
  /-- An option with its value in the next argument, which is no option itself. -/
  | separate {option value : String} {rest : List String} {values : List (Option String)} :
    NamesEnvFile option.toList → programGrammar.classify value = .ok (.operand value) →
      EnvFileOptions rest values →
      EnvFileOptions (option :: value :: rest) (some value :: values)

/-- The file that the first look at the arguments takes from an argument with a blank in it, though
the argument is no option to any command. -/
def strayEnvFile? (argument : String) : Option String :=
  if NamesEnvFile (optionPart argument.toList) ∧ ' ' ∈ argument.toList then
    joinedPart? argument.toList
  else none

/-- The files that the first look takes from the arguments of a command. -/
def strayEnvFiles (arguments : List String) : List String :=
  (beforeSeparator arguments).filterMap strayEnvFile?

/-! ### The grammars -/

theorem plainNames_envFileGrammar : envFileGrammar.PlainNames := by decide

theorem plainNames_programGrammar : programGrammar.PlainNames := by decide

theorem plainNames_extractGrammar : extractGrammar.PlainNames := by decide

theorem plainNames_serveGrammar : serveGrammar.PlainNames := by decide

/-- A grammar with the option for the environment file, which no other option begins like. -/
structure ReadsEnvFile (g : Grammar (Option String)) : Prop where
  plainNames : g.PlainNames
  optionsFrom : ∀ option, NamesEnvFile option → g.optionsFrom option = [envFileOption]

section

variable {option : List Char}

theorem NamesEnvFile.isPrefixOf_eq_false (h : NamesEnvFile option) (name : List Char)
    (hn : ¬ envFileStart <+: name) : option.isPrefixOf name = false :=
  Bool.eq_false_iff.2 fun hp => hn (h.1.trans (List.isPrefixOf_iff_prefix.1 hp))

theorem readsEnvFile_envFileGrammar : ReadsEnvFile envFileGrammar where
  plainNames := plainNames_envFileGrammar
  optionsFrom option h := by
    simp [Grammar.optionsFrom, envFileGrammar, h.2]

theorem readsEnvFile_programGrammar : ReadsEnvFile programGrammar where
  plainNames := plainNames_programGrammar
  optionsFrom option h := by
    have hshort := h.isPrefixOf_eq_false ['-', 'h'] (by decide)
    have hlong := h.isPrefixOf_eq_false ['-', '-', 'h', 'e', 'l', 'p'] (by decide)
    have hself := List.isPrefixOf_iff_prefix.2 h.2
    simp [Grammar.optionsFrom, programGrammar, helpOptions, List.filter, hshort, hlong, hself]

theorem NamesEnvFile.equals_notMem (h : NamesEnvFile option) : '=' ∉ option :=
  fun hmem => absurd (h.2.subset hmem) (by decide)

theorem NamesEnvFile.blank_notMem (h : NamesEnvFile option) : ' ' ∉ option :=
  fun hmem => absurd (h.2.subset hmem) (by decide)

/-- A beginning of the name with both dashes is the dashes alone or tells the option. -/
theorem eq_dashes_or_namesEnvFile (hd : dashes <+: option) (h : option <+: envFileOption.1.toList) :
    option = dashes ∨ NamesEnvFile option := by
  have hstart : envFileStart <+: envFileOption.1.toList := by decide
  rcases List.prefix_or_prefix_of_prefix h hstart with hle | hge
  · obtain ⟨t, rfl⟩ := hd
    have ht : t <+: ['e'] := by simpa [dashes, envFileStart] using hle
    rcases List.prefix_cons_iff.1 ht with rfl | ⟨u, rfl, hu⟩
    · exact .inl rfl
    · rw [List.prefix_nil.1 hu]
      exact .inr (by decide)
  · exact .inr ⟨hge, h⟩

end

/-! ### Options before the command -/

variable {g : Grammar (Option String)} {s value : String} {l : List String}

theorem classify_envFile (hg : ReadsEnvFile g) (h : NamesEnvFile (optionPart s.toList)) :
    g.classify s =
      .ok (.option s envFileOption.1 (.value some) (joinedPart? s.toList)) := by
  have hdashes : dashes <+: s.toList :=
    (List.IsPrefix.trans (by decide) h.1).trans (optionPart_isPrefix s.toList)
  exact classify_of_unique hdashes hg.plainNames (hg.optionsFrom _ h)

theorem ne_separator_of_namesEnvFile (h : NamesEnvFile (optionPart s.toList)) : s ≠ "--" := by
  rintro rfl
  exact absurd h (by decide)

theorem read_joined (hg : ReadsEnvFile g) (h : NamesEnvFile (optionPart s.toList))
    (hv : joinedPart? s.toList = some value) :
    g.read (s :: l) = (g.read l).map (Reading.after [givenValue value]) := by
  have hs := ne_separator_of_namesEnvFile h
  have hw := classify_envFile hg h
  rw [hv] at hw
  have hwords := words_cons (l := l) hs hw
  rcases hl : g.words l with e | ws
  · rw [hl] at hwords
    rw [read_of_words_error hwords, read_of_words_error hl]
    rfl
  · rw [hl] at hwords
    rw [read_of_words hwords, read_of_words hl, readFrom_joined, ← readFrom_after,
      Reading.endRun_nil]
    rfl

theorem read_separate (hg : ReadsEnvFile g) (h : NamesEnvFile (optionPart s.toList))
    (hj : joinedPart? s.toList = none) (hv : value ≠ "--")
    (hvalue : g.classify value = .ok (.operand value)) :
    g.read (s :: value :: l) = (g.read l).map (Reading.after [some value]) := by
  have hs := ne_separator_of_namesEnvFile h
  have hw := classify_envFile hg h
  rw [hj] at hw
  have hwords := words_cons (l := value :: l) hs hw
  rw [words_cons hv hvalue] at hwords
  rcases hl : g.words l with e | ws
  · rw [hl] at hwords
    rw [read_of_words_error hwords, read_of_words_error hl]
    rfl
  · rw [hl] at hwords
    rw [read_of_words hwords, read_of_words hl, readFrom_separate, ← readFrom_after,
      Reading.endRun_nil, givenValue, if_neg hv]
    rfl

/-- An argument that the full reading takes as an operand is not the separator. -/
theorem ne_separator_of_operand (h : programGrammar.classify s = .ok (.operand s)) : s ≠ "--" := by
  rintro rfl
  rw [classify_of_ambiguous (by decide) plainNames_programGrammar (by decide) (by decide)] at h
  cases h

theorem classify_operand_envFileGrammar (h : programGrammar.classify s = .ok (.operand s)) :
    envFileGrammar.classify s = .ok (.operand s) :=
  classify_operand_of_subset (g := programGrammar) plainNames_envFileGrammar
    (List.subset_append_right helpOptions [envFileOption]) h

theorem EnvFileOptions.read {before : List String} {values : List (Option String)}
    (h : EnvFileOptions before values) (hg : ReadsEnvFile g)
    (hoperand : ∀ s, programGrammar.classify s = .ok (.operand s) → g.classify s = .ok (.operand s))
    (l : List String) : g.read (before ++ l) = (g.read l).map (Reading.after values) := by
  induction h with
  | none => exact (Reading.map_after_nil _).symm
  | @joined option value rest values ho _ ih =>
    have hlist : (option ++ "=" ++ value).toList = option.toList ++ '=' :: value.toList := by simp
    have hpart : optionPart (option ++ "=" ++ value).toList = option.toList := by
      rw [hlist, optionPart_append ho.equals_notMem]
    have hjoined : joinedPart? (option ++ "=" ++ value).toList = some value := by
      rw [hlist, joinedPart?_append ho.equals_notMem, String.ofList_toList]
    rw [List.cons_append, read_joined hg (hpart ▸ ho) hjoined, ih,
      Reading.map_after_cons]
  | @separate option value rest values ho hvalue _ ih =>
    have hpart : optionPart option.toList = option.toList := optionPart_of_notMem ho.equals_notMem
    rw [List.cons_append, List.cons_append,
      read_separate hg (hpart.symm ▸ ho) (joinedPart?_of_notMem ho.equals_notMem)
        (ne_separator_of_operand hvalue) (hoperand _ hvalue), ih,
      Reading.map_after_cons]

theorem EnvFileOptions.append {before after : List String} {values values' : List (Option String)}
    (h : EnvFileOptions before values) (h' : EnvFileOptions after values') :
    EnvFileOptions (before ++ after) (values ++ values') := by
  induction h with
  | none => exact h'
  | joined ho _ ih => exact .joined ho ih
  | separate ho hvalue _ ih => exact .separate ho hvalue ih

/-! ### Up to the command -/

theorem mem_programGrammar {name : String} {action : Action (Option String)}
    (h : (name, action) ∈ programGrammar.options) :
    action = .help ∨ name = envFileOption.1 ∧ action = .value some := by
  simp only [programGrammar, helpOptions, envFileOption, List.cons_append, List.nil_append,
    List.mem_cons, List.not_mem_nil, or_false, Prod.mk.injEq] at h
  rcases h with ⟨-, h⟩ | ⟨-, h⟩ | h
  · exact .inl h
  · exact .inl h
  · exact .inr h

/-- The dashes alone begin two options of the full reading. -/
theorem classify_dashes (h : dashes <+: s.toList) (hpart : optionPart s.toList = dashes) :
    programGrammar.classify s = .error .usage :=
  classify_of_ambiguous h plainNames_programGrammar (hpart ▸ by decide) (hpart ▸ by decide)

theorem optionPart_eq_dashes_or_namesEnvFile (hd : dashes <+: s.toList)
    (h : optionPart s.toList <+: envFileOption.1.toList) :
    optionPart s.toList = dashes ∨ NamesEnvFile (optionPart s.toList) :=
  eq_dashes_or_namesEnvFile (prefix_optionPart (by decide) hd) h

/-- An argument that the full reading takes for the option names the environment file. -/
theorem namesEnvFile_of_classify {text name : String} {joined : Option String}
    (h : programGrammar.classify s = .ok (.option text name (.value some) joined)) :
    NamesEnvFile (optionPart s.toList) := by
  obtain ⟨hmem, hread⟩ := of_classify_eq_option plainNames_programGrammar h
  obtain hhelp | ⟨rfl, -⟩ := mem_programGrammar hmem
  · cases hhelp
  obtain ⟨hdashes, hpart, -⟩ := hread (by decide)
  refine (optionPart_eq_dashes_or_namesEnvFile hdashes hpart).resolve_left fun hd => ?_
  rw [classify_dashes hdashes hd] at h
  cases h

/-- The full reading takes options off the front only where they are for the environment file. -/
theorem exists_taken_of_read {R : Reading (Option String)} {text name : String}
    {action : Action (Option String)} {joined : Option String}
    (hw : programGrammar.classify s = .ok (.option text name action joined))
    (h : programGrammar.read (s :: l) = .ok R) :
    ∃ taken l' value, s :: l = taken ++ l' ∧ l'.length ≤ l.length ∧
      EnvFileOptions taken [value] := by
  have hs : s ≠ "--" := by
    rintro rfl
    rw [classify_dashes (by decide) (by decide)] at hw
    cases hw
  obtain ⟨ws, hws, hread⟩ := exists_of_bind_eq_ok h
  rcases mem_programGrammar (of_classify_eq_option plainNames_programGrammar hw).1 with
    rfl | ⟨rfl, rfl⟩
  · obtain ⟨w, ws, hw', -, rfl⟩ := exists_of_words_cons hs hws
    obtain rfl : Word.option text name .help joined = w := Except.ok.inj (hw.symm.trans hw')
    exact absurd hread readFrom_help
  have hnames := namesEnvFile_of_classify hw
  rcases splitJoined?_cases s.toList with ⟨hmem, -, hpart⟩ | ⟨v, heq, -⟩
  · -- The value is the next argument.
    obtain ⟨w, ws, hw', hl, rfl⟩ := exists_of_words_cons hs hws
    rw [classify_envFile readsEnvFile_programGrammar hnames, joinedPart?_of_notMem hmem] at hw'
    cases hw'
    obtain ⟨value, ws, rfl⟩ := exists_of_readFrom_alone hread
    rcases l with _ | ⟨t, l⟩
    · cases hl
    have ht : t ≠ "--" := by
      rintro rfl
      rw [words_separator] at hl
      cases hl
    obtain ⟨w, ws, hvalue, -, heq⟩ := exists_of_words_cons ht hl
    cases heq
    obtain rfl : value = t := text_of_classify hvalue
    exact ⟨[s, value], l, some value, rfl, Nat.le_succ _, .separate (hpart ▸ hnames) hvalue .none⟩
  · have hs : s = String.ofList (optionPart s.toList) ++ "=" ++ String.ofList v :=
      String.toList_injective (by simpa using heq)
    rw [← String.toList_ofList (l := optionPart s.toList)] at hnames
    have hjoined : EnvFileOptions
        [String.ofList (optionPart s.toList) ++ "=" ++ String.ofList v] [_] := .joined hnames .none
    rw [← hs] at hjoined
    exact ⟨[s], l, _, rfl, Nat.le_refl _, hjoined⟩

/-- The separator in front stands for the name of the command. -/
theorem operands_of_read_separator {R : Reading (Option String)} {name : String}
    {rest : List String} (h : programGrammar.read ("--" :: l) = .ok R)
    (hoperands : R.operands = some (name :: rest)) : name = "--" := by
  rw [read_of_words (words_separator _ l), readFrom_separator rfl] at h
  rcases l with _ | ⟨t, l⟩
  · cases h
    cases hoperands
  · cases h
    cases hoperands
    rfl

/-- The full reading reaches the name of the command after options for the environment file only. -/
theorem exists_envFileOptions_of_read {name : String} {arguments rest : List String}
    {R : Reading (Option String)} (h : programGrammar.read arguments = .ok R)
    (hextras : R.extras = []) (hoperands : R.operands = some (name :: rest)) (hname : name ≠ "--") :
    ∃ before, arguments = before ++ name :: rest ∧ EnvFileOptions before R.settings := by
  induction hn : arguments.length using Nat.strong_induction_on generalizing arguments R with
  | _ n ih =>
    subst hn
    rcases arguments with _ | ⟨s, l⟩
    · cases h
      cases hoperands
    by_cases hs : s = "--"
    · subst hs
      exact absurd (operands_of_read_separator h hoperands) hname
    obtain ⟨ws, hws, hread⟩ := exists_of_bind_eq_ok h
    obtain ⟨w, ws, hw, hl, rfl⟩ := exists_of_words_cons hs hws
    cases w with
    | operand text =>
      obtain rfl : text = s := text_of_classify hw
      cases hread
      cases hoperands
      exact ⟨[], by rw [text_of_words hl]; rfl, .none⟩
    | separator => exact absurd (text_of_classify hw).symm hs
    | unknown text =>
      rw [readFrom_unknown rfl] at hread
      have := extras_prefix_of_readFrom hread
      simp [hextras] at this
    | option text option action joined =>
      obtain ⟨taken, l', value, heq, hlt, htaken⟩ := exists_taken_of_read hw h
      rw [heq, htaken.read readsEnvFile_programGrammar fun _ => id] at h
      rcases hl' : programGrammar.read l' with e | R'
      · rw [hl'] at h
        cases h
      rw [hl'] at h
      cases h
      obtain ⟨before, rfl, hbefore⟩ := ih l'.length (Nat.lt_succ_of_le hlt) hl' hextras hoperands rfl
      exact ⟨taken ++ before, by rw [heq, List.append_assoc], htaken.append hbefore⟩

/-! ### After the command -/

/-- To a command an argument that begins like the option for the environment file is an operand if
it holds a blank, and unknown if not. -/
theorem classify_of_envFileStart {α : Type} {g : Grammar α} (hg : g.PlainNames)
    (hstart : ∀ o ∈ g.options, ¬ envFileStart <+: o.1.toList) (h : envFileStart <+: s.toList) :
    g.classify s = if s.toList.contains ' ' then .ok (.operand s) else .ok (.unknown s) := by
  have hpart : envFileStart <+: optionPart s.toList := prefix_optionPart (by decide) h
  exact classify_of_no_option (List.IsPrefix.trans (by decide) h) hg
    fun o ho hp => hstart o ho (hpart.trans hp)

theorem strayEnvFile?_eq_none (h : ¬ NamesEnvFile (optionPart s.toList)) :
    strayEnvFile? s = none := by
  rw [strayEnvFile?, if_neg fun hs => h hs.1]

theorem strayEnvFiles_separator (l : List String) : strayEnvFiles ("--" :: l) = [] := by
  rw [strayEnvFiles, beforeSeparator_separator, List.filterMap_nil]

theorem strayEnvFiles_cons (hs : s ≠ "--") :
    strayEnvFiles (s :: l) = (strayEnvFile? s).toList ++ strayEnvFiles l := by
  rw [strayEnvFiles, beforeSeparator_cons hs, List.filterMap_cons]
  rcases strayEnvFile? s with _ | value <;> rfl

/-- With a blank in it, the option has a value joined to it, and not the separator. -/
theorem exists_joined_of_blank (hnames : NamesEnvFile (optionPart s.toList))
    (hs : ' ' ∈ s.toList) : ∃ value, joinedPart? s.toList = some value ∧ value ≠ "--" := by
  rcases splitJoined?_cases s.toList with ⟨-, -, hpart⟩ | ⟨v, heq, hsplit⟩
  · rw [hpart] at hnames
    exact absurd hs hnames.blank_notMem
  refine ⟨String.ofList v, by rw [joinedPart?, hsplit, Option.map_some], fun hv => ?_⟩
  obtain rfl : v = ['-', '-'] := by
    rw [← String.toList_ofList (l := v), hv]
    rfl
  rw [heq] at hs
  rcases List.mem_append.1 hs with hs | hs
  · exact hnames.blank_notMem hs
  · exact absurd hs (by decide)

/-- An argument that does not name the option is none to the first look, if the full reading can
classify it. -/
theorem classify_envFileGrammar_of_not (hnames : ¬ NamesEnvFile (optionPart s.toList))
    {w : Word (Option String)} (h : programGrammar.classify s = .ok w) :
    envFileGrammar.classify s = .ok (.operand s) ∨ envFileGrammar.classify s = .ok (.unknown s) := by
  have hdashes : ∀ hd : dashes <+: s.toList, optionPart s.toList ≠ dashes := by
    intro hd hpart
    rw [classify_dashes hd hpart] at h
    cases h
  rcases hw : envFileGrammar.classify s with e | w'
  · exact absurd hw (classify_ne_error (by decide))
  have htext := text_of_classify hw
  cases w' with
  | operand text => exact .inl (congrArg (Except.ok ∘ Word.operand) htext)
  | unknown text => exact .inr (congrArg (Except.ok ∘ Word.unknown) htext)
  | separator =>
    obtain rfl : "--" = s := htext
    exact absurd rfl (hdashes (by decide))
  | option text name action joined =>
    obtain ⟨hmem, hread⟩ := of_classify_eq_option plainNames_envFileGrammar hw
    obtain rfl : name = envFileOption.1 := congrArg Prod.fst (List.mem_singleton.1 hmem)
    obtain ⟨hd, hpart, -⟩ := hread (by decide)
    exact absurd ((optionPart_eq_dashes_or_namesEnvFile hd hpart).resolve_left (hdashes hd)) hnames

/-- The first look finds nothing but the values in arguments with a blank, where an argument that
begins like the option holds one. -/
theorem exists_readFrom_envFileGrammar {ws : List (Word (Option String))}
    (hl : programGrammar.words l = .ok ws)
    (hblank : ∀ s ∈ beforeSeparator l, envFileStart <+: s.toList → ' ' ∈ s.toList) :
    ∃ ws', envFileGrammar.words l = .ok ws' ∧ ∀ r run, ∃ R,
      envFileGrammar.readFrom r {} run ws' = .ok R ∧
        R.settings = r.settings ++ (strayEnvFiles l).map some := by
  induction l generalizing ws with
  | nil =>
    refine ⟨[], rfl, fun r run => ⟨_, rfl, ?_⟩⟩
    rw [Reading.settings_endRun]
    exact (List.append_nil r.settings).symm
  | cons s l ih =>
    by_cases hs : s = "--"
    · subst hs
      refine ⟨_, words_separator _ l, fun r run => ?_⟩
      rw [strayEnvFiles_separator, List.map_nil, List.append_nil, readFrom_separator rfl]
      exact settings_readFrom_operands (by decide) l r (run ++ ["--"])
    rw [beforeSeparator_cons hs] at hblank
    obtain ⟨w, ws, hw, hws, -⟩ := exists_of_words_cons hs hl
    obtain ⟨ws', hws', hread⟩ := ih hws fun s' hs' => hblank s' (List.mem_cons_of_mem s hs')
    rw [strayEnvFiles_cons hs]
    by_cases hnames : NamesEnvFile (optionPart s.toList)
    · have hin := hblank s List.mem_cons_self (hnames.1.trans (optionPart_isPrefix s.toList))
      obtain ⟨value, hjoined, hvalue⟩ := exists_joined_of_blank hnames hin
      have hw' := classify_envFile readsEnvFile_envFileGrammar hnames
      rw [hjoined] at hw'
      refine ⟨_, by rw [words_cons hs hw', hws']; rfl, fun r run => ?_⟩
      rw [strayEnvFile?, if_pos ⟨hnames, hin⟩, hjoined, readFrom_joined]
      obtain ⟨R, hR, hsettings⟩ := hread { r.endRun envFileGrammar.operands run with
        settings := (r.endRun envFileGrammar.operands run).settings ++ [givenValue value] } []
      exact ⟨R, hR, by rw [hsettings]; simp [Reading.settings_endRun, givenValue, hvalue]⟩
    rw [strayEnvFile?_eq_none hnames]
    rcases classify_envFileGrammar_of_not hnames hw with hw' | hw'
    · refine ⟨_, by rw [words_cons hs hw', hws']; rfl, fun r run => ?_⟩
      rw [readFrom_operand rfl,
        if_neg (by simp [show envFileGrammar.operands ≠ .command by decide])]
      exact hread r (run ++ [s])
    · refine ⟨_, by rw [words_cons hs hw', hws']; rfl, fun r run => ?_⟩
      rw [readFrom_unknown rfl]
      obtain ⟨R, hR, hsettings⟩ := hread { r.endRun envFileGrammar.operands run with
        extras := (r.endRun envFileGrammar.operands run).extras ++ [s] } []
      exact ⟨R, hR, by rw [hsettings]; simp [Reading.settings_endRun]⟩

theorem settings_of_read {ws : List (Word (Option String))} (hl : programGrammar.words l = .ok ws)
    (hblank : ∀ s ∈ beforeSeparator l, envFileStart <+: s.toList → ' ' ∈ s.toList) :
    ∃ R, envFileGrammar.read l = .ok R ∧ R.settings = (strayEnvFiles l).map some := by
  obtain ⟨ws', hws', hread⟩ := exists_readFrom_envFileGrammar hl hblank
  obtain ⟨R, hR, hsettings⟩ := hread {} []
  exact ⟨R, by rw [read_of_words hws', hR], by simpa using hsettings⟩

end ScriptBlocks.Arguments
