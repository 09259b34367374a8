import ScriptBlocks.Arguments.Invocation

/-!
# Reading goes on from what was read

A reading only adds to what was read before it: what options set comes after the earlier settings,
which change nothing else (`Grammar.readFrom_after`), and what is left over stays left over
(`Grammar.extras_prefix_of_readFrom`).  So a command that leaves nothing over has met no unknown
argument (`Grammar.unknown_notMem_of_readFrom`).  The last section is about options that take any
value.
-/

namespace ScriptBlocks.Arguments

variable {α : Type}

/-! ### Earlier settings -/

/-- The reading with further settings before its own. -/
def Reading.after (earlier : List α) (r : Reading α) : Reading α :=
  { r with settings := earlier ++ r.settings }

theorem Reading.map_after_nil (x : Except Stop (Reading α)) : x.map (Reading.after []) = x := by
  rcases x with e | r <;> rfl

theorem Reading.map_after_cons (first : α) (rest : List α) (x : Except Stop (Reading α)) :
    (x.map (Reading.after rest)).map (Reading.after [first]) =
      x.map (Reading.after (first :: rest)) := by
  rcases x with e | r <;> rfl

/-- A step that carries earlier settings along does so after a step that does. -/
theorem bind_map_of_forall {β : Type} {f : β → β} {k : β → Except Stop β}
    (h : ∀ b, k (f b) = (k b).map f) (x : Except Stop β) : (x.map f >>= k) = (x >>= k).map f := by
  rcases x with e | b
  · rfl
  · exact h b

theorem exists_of_bind_eq_ok {β γ : Type} {x : Except Stop β} {k : β → Except Stop γ} {c : γ}
    (h : (x >>= k) = .ok c) : ∃ b, x = .ok b ∧ k b = .ok c := by
  rcases x with e | b
  · cases h
  · exact ⟨b, rfl, h⟩

namespace Reading

variable {r R : Reading α} {use : Use α} {uses : List (Use α)} {earlier : List α}

theorem apply_after (earlier : List α) (r : Reading α) (use : Use α) :
    (r.after earlier).apply use = (r.apply use).map (Reading.after earlier) := by
  unfold apply
  split
  · rfl
  · simp [after, Except.map]
  · split <;> simp [after, Except.map]

theorem applyAll_after (earlier : List α) (r : Reading α) (uses : List (Use α)) :
    (r.after earlier).applyAll uses = (r.applyAll uses).map (Reading.after earlier) := by
  induction uses generalizing r with
  | nil => rfl
  | cons use uses ih =>
    simp only [applyAll, apply_after]
    rcases r.apply use with e | r'
    · rfl
    · exact ih r'

theorem endRun_after (operands : Operands) (earlier : List α) (r : Reading α) (run : List String) :
    (r.after earlier).endRun operands run = (r.endRun operands run).after earlier := by
  by_cases h : (operands = .some && r.operands.isNone && holdsOperand run) = true
  · rw [endRun, endRun, if_pos h, if_pos (by exact h)]
    rfl
  · rw [endRun, endRun, if_neg h, if_neg (by exact h)]
    rfl

theorem settings_endRun (operands : Operands) (r : Reading α) (run : List String) :
    (r.endRun operands run).settings = r.settings := by
  unfold endRun
  split <;> rfl

@[simp] theorem endRun_nil (operands : Operands) (r : Reading α) : r.endRun operands [] = r := by
  simp [endRun, holdsOperand]

theorem extras_of_apply (h : r.apply use = .ok R) : R.extras = r.extras := by
  unfold apply at h
  split at h
  · cases h
  · cases h
    rfl
  · split at h
    · cases h
      rfl
    · cases h

theorem extras_of_applyAll (h : r.applyAll uses = .ok R) : R.extras = r.extras := by
  induction uses generalizing r with
  | nil =>
    cases h
    rfl
  | cons use uses ih =>
    simp only [applyAll] at h
    rcases hr : r.apply use with e | r'
    · rw [hr] at h
      cases h
    · rw [hr] at h
      rw [ih h, extras_of_apply hr]

theorem extras_prefix_endRun (operands : Operands) (r : Reading α) (run : List String) :
    r.extras <+: (r.endRun operands run).extras := by
  unfold endRun
  split
  · exact List.prefix_rfl
  · exact List.prefix_append r.extras run

end Reading

namespace Grammar

variable {g : Grammar α} {r R : Reading α} {group : Group α} {run : List String}
  {words : List (Word α)} {arguments : List String} {action : Action α} {text : String}

theorem read_of_words (h : g.words arguments = .ok words) :
    g.read arguments = g.readFrom {} {} [] words := by
  rw [Grammar.read, h]
  rfl

theorem read_of_words_error {e : Stop} (h : g.words arguments = .error e) :
    g.read arguments = .error e := by
  rw [Grammar.read, h]
  rfl

/-! One equation for each word that may come next, with or without an option that needs a value. -/

theorem readFrom_nil (hp : group.pending = none) :
    g.readFrom r group run [] = .ok (r.endRun g.operands run) := by
  obtain ⟨uses, pending⟩ := group
  cases hp
  rfl

theorem readFrom_nil_of_pending (hp : group.pending = some action) :
    g.readFrom r group run [] = .error .usage := by
  obtain ⟨uses, pending⟩ := group
  cases hp
  rfl

theorem readFrom_value (hp : group.pending = some action) :
    g.readFrom r group run (.operand text :: words) =
      (r.applyAll (group.uses ++ [{ action, value := text }]) >>= fun r =>
        g.readFrom r {} [] words) := by
  obtain ⟨uses, pending⟩ := group
  cases hp
  rfl

theorem readFrom_noValue {word : Word α} (hp : group.pending = some action)
    (hword : ∀ text, word ≠ .operand text) :
    g.readFrom r group run (word :: words) = .error .usage := by
  obtain ⟨uses, pending⟩ := group
  cases hp
  cases word with
  | operand text => exact absurd rfl (hword text)
  | separator | unknown | option => rfl

theorem readFrom_operand (hp : group.pending = none) :
    g.readFrom r group run (.operand text :: words) =
      if (g.operands = .command && r.operands.isNone) = true then
        .ok { r with operands := some (run ++ text :: words.map Word.text) }
      else g.readFrom r {} (run ++ [text]) words := by
  obtain ⟨uses, pending⟩ := group
  cases hp
  rfl

theorem readFrom_separator (hp : group.pending = none) :
    g.readFrom r group run (.separator :: words) = g.readFrom r {} (run ++ ["--"]) words := by
  obtain ⟨uses, pending⟩ := group
  cases hp
  rfl

theorem readFrom_unknown (hp : group.pending = none) :
    g.readFrom r group run (.unknown text :: words) =
      g.readFrom { r.endRun g.operands run with
        extras := (r.endRun g.operands run).extras ++ [text] } {} [] words := by
  obtain ⟨uses, pending⟩ := group
  cases hp
  rfl

theorem readFrom_option {name : String} {joined : Option String} (hp : group.pending = none) :
    g.readFrom r group run (.option text name action joined :: words) =
      (Group.ofOption g name action joined >>= fun group =>
        match group.pending with
        | some _ => g.readFrom (r.endRun g.operands run) group [] words
        | none =>
          (r.endRun g.operands run).applyAll group.uses >>= fun r =>
            g.readFrom r {} [] words) := by
  obtain ⟨uses, pending⟩ := group
  cases hp
  rfl

theorem readFrom_after (g : Grammar α) (earlier : List α) (r : Reading α) (group : Group α)
    (run : List String) (words : List (Word α)) :
    g.readFrom (r.after earlier) group run words =
      (g.readFrom r group run words).map (Reading.after earlier) := by
  induction r, group, run, words using readFrom.induct (g := g) with
  | case1 r group run action hp =>
    rw [readFrom_nil_of_pending hp, readFrom_nil_of_pending hp]
    rfl
  | case2 r group run hp =>
    rw [readFrom_nil hp, readFrom_nil hp, Reading.endRun_after]
    rfl
  | case3 r group run words action text hp ih =>
    rw [readFrom_value hp, readFrom_value hp, Reading.applyAll_after]
    exact bind_map_of_forall ih _
  | case4 r group run word words action hp hword =>
    rw [readFrom_noValue hp hword, readFrom_noValue hp hword]
    rfl
  | case5 r group run words text hp hcommand =>
    rw [readFrom_operand hp, readFrom_operand hp, if_pos hcommand,
      if_pos (by exact hcommand)]
    rfl
  | case6 r group run words text hp hcommand ih =>
    rw [readFrom_operand hp, readFrom_operand hp, if_neg hcommand,
      if_neg (by exact hcommand), ih]
  | case7 r group run words hp ih =>
    rw [readFrom_separator hp, readFrom_separator hp, ih]
  | case8 r group run words text hp r' ih =>
    rw [readFrom_unknown hp, readFrom_unknown hp, Reading.endRun_after]
    exact ih
  | case9 r group run words text name action joined hp r' ih₁ ih₂ =>
    rw [readFrom_option hp, readFrom_option hp,
      Reading.endRun_after]
    rcases Group.ofOption g name action joined with e | group'
    · rfl
    · simp only [bind, Except.bind]
      split
      · exact ih₁ group'
      · rw [Reading.applyAll_after]
        exact bind_map_of_forall ih₂ _

theorem extras_prefix_of_readFrom (h : g.readFrom r group run words = .ok R) :
    r.extras <+: R.extras := by
  induction r, group, run, words using readFrom.induct (g := g) with
  | case1 r group run action hp => simp [readFrom_nil_of_pending hp] at h
  | case2 r group run hp =>
    rw [readFrom_nil hp] at h
    cases h
    exact Reading.extras_prefix_endRun g.operands r run
  | case3 r group run words action text hp ih =>
    rw [readFrom_value hp] at h
    obtain ⟨r', hr, h⟩ := exists_of_bind_eq_ok h
    exact Reading.extras_of_applyAll hr ▸ ih r' h
  | case4 r group run word words action hp hword =>
    rw [readFrom_noValue hp hword] at h
    cases h
  | case5 r group run words text hp hcommand =>
    rw [readFrom_operand hp, if_pos hcommand] at h
    cases h
    exact List.prefix_rfl
  | case6 r group run words text hp hcommand ih =>
    rw [readFrom_operand hp, if_neg hcommand] at h
    exact ih h
  | case7 r group run words hp ih =>
    rw [readFrom_separator hp] at h
    exact ih h
  | case8 r group run words text hp r' ih =>
    rw [readFrom_unknown hp] at h
    exact ((Reading.extras_prefix_endRun g.operands r run).trans (List.prefix_append _ _)).trans
      (ih h)
  | case9 r group run words text name action joined hp r' ih₁ ih₂ =>
    rw [readFrom_option hp] at h
    obtain ⟨group', -, h⟩ := exists_of_bind_eq_ok h
    have hr' : r.extras <+: r'.extras := Reading.extras_prefix_endRun g.operands r run
    split at h
    · exact hr'.trans (ih₁ group' h)
    · obtain ⟨r'', hr'', h⟩ := exists_of_bind_eq_ok h
      exact hr'.trans (Reading.extras_of_applyAll hr'' ▸ ih₂ r'' h)

/-- Operands set nothing. -/
theorem settings_readFrom_operands (hg : g.operands ≠ .command) (l : List String) (r : Reading α)
    (run : List String) :
    ∃ R, g.readFrom r {} run (l.map .operand) = .ok R ∧ R.settings = r.settings := by
  induction l generalizing run with
  | nil => exact ⟨_, rfl, Reading.settings_endRun g.operands r run⟩
  | cons s l ih =>
    rw [List.map_cons, readFrom_operand rfl, if_neg (by simp [hg])]
    exact ih (run ++ [s])

/-- Where nothing is left over, no unknown argument has been met. -/
theorem unknown_notMem_of_readFrom (hg : g.operands ≠ .command)
    (h : g.readFrom r group run words = .ok R) (hR : R.extras = []) (text : String) :
    .unknown text ∉ words := by
  induction r, group, run, words using readFrom.induct (g := g) with
  | case1 | case2 => exact List.not_mem_nil
  | case3 r group run words action text' hp ih =>
    rw [readFrom_value hp] at h
    obtain ⟨r', -, h⟩ := exists_of_bind_eq_ok h
    simpa using ih r' h
  | case4 r group run word words action hp hword =>
    rw [readFrom_noValue hp hword] at h
    cases h
  | case5 r group run words text' hp hcommand => simp [hg] at hcommand
  | case6 r group run words text' hp hcommand ih =>
    rw [readFrom_operand hp, if_neg hcommand] at h
    simpa using ih h
  | case7 r group run words hp ih =>
    rw [readFrom_separator hp] at h
    simpa using ih h
  | case8 r group run words text' hp r' ih =>
    rw [readFrom_unknown hp] at h
    have := extras_prefix_of_readFrom h
    simp [hR] at this
  | case9 r group run words text' name action joined hp r' ih₁ ih₂ =>
    rw [readFrom_option hp] at h
    obtain ⟨group', -, h⟩ := exists_of_bind_eq_ok h
    split at h
    · simpa using ih₁ group' h
    · obtain ⟨r'', -, h⟩ := exists_of_bind_eq_ok h
      simpa using ih₂ r'' h

end Grammar

/-! ### The option for help -/

theorem Group.exists_uses_of_help {g : Grammar α} {name : String} {joined : Option String}
    {group : Group α} (h : Group.ofOption g name .help joined = .ok group) :
    ∃ uses, group.uses = { action := .help } :: uses := by
  rcases joined with _ | text
  · cases h
    exact ⟨[], rfl⟩
  · simp only [Group.ofOption] at h
    rcases hcs : text.toList with _ | ⟨c, rest⟩
    · rw [hcs] at h
      cases h
    · rw [hcs] at h
      simp only [Group.joined] at h
      split at h
      · split at h
        · cases h
        · split at h
          · cases h
            exact ⟨_, rfl⟩
          · obtain ⟨next, -, h⟩ := exists_of_bind_eq_ok h
            cases h
            exact ⟨next.uses, rfl⟩
      · cases h

/-- A command whose arguments ask for help is not read to its end. -/
theorem Grammar.readFrom_help {g : Grammar α} {r R : Reading α} {run : List String} {s name : String}
    {joined : Option String} {words : List (Word α)} :
    g.readFrom r {} run (.option s name .help joined :: words) ≠ .ok R := by
  intro h
  rw [readFrom_option rfl] at h
  obtain ⟨group, hgroup, h⟩ := exists_of_bind_eq_ok h
  obtain ⟨uses, huses⟩ := Group.exists_uses_of_help hgroup
  split at h
  · next action hp =>
    rcases words with _ | ⟨word, words⟩
    · simp [readFrom_nil_of_pending hp] at h
    · by_cases hword : ∃ value, word = .operand value
      · obtain ⟨value, rfl⟩ := hword
        rw [readFrom_value hp, huses] at h
        cases h
      · rw [readFrom_noValue hp fun value hv => hword ⟨value, hv⟩] at h
        cases h
  · rw [huses] at h
    cases h

/-! ### Options that take any value -/

namespace Grammar

variable {g : Grammar (Option String)} {r : Reading (Option String)} {run : List String}
  {words : List (Word (Option String))}

theorem readFrom_joined (g : Grammar (Option String)) (r : Reading (Option String))
    (run : List String) (s name value : String) (words : List (Word (Option String))) :
    g.readFrom r {} run (.option s name (.value some) (some value) :: words) =
      let r' := r.endRun g.operands run
      g.readFrom { r' with settings := r'.settings ++ [givenValue value] } {} [] words := by
  have hgroup : Group.ofOption g name (.value some) (some value) =
      .ok { uses := [{ action := .value some, value }] } := by
    obtain ⟨cs, rfl⟩ : ∃ cs, value = String.ofList cs := ⟨value.toList, String.ofList_toList.symm⟩
    rw [Group.ofOption, String.toList_ofList]
    cases cs <;> rfl
  rw [readFrom_option rfl, hgroup]
  rfl

theorem readFrom_separate (g : Grammar (Option String)) (r : Reading (Option String))
    (run : List String) (s name value : String) (words : List (Word (Option String))) :
    g.readFrom r {} run (.option s name (.value some) none :: .operand value :: words) =
      let r' := r.endRun g.operands run
      g.readFrom { r' with settings := r'.settings ++ [givenValue value] } {} [] words := by
  rw [readFrom_option rfl]
  rfl

theorem exists_of_readFrom_alone {R : Reading (Option String)} {s name : String}
    (h : g.readFrom r {} run (.option s name (.value some) none :: words) = .ok R) :
    ∃ value words', words = .operand value :: words' := by
  rw [readFrom_option rfl] at h
  change g.readFrom _ { pending := some (.value some) } [] words = .ok R at h
  rcases words with _ | ⟨word, words⟩
  · cases h
  · by_cases hword : ∃ value, word = .operand value
    · obtain ⟨value, rfl⟩ := hword
      exact ⟨value, words, rfl⟩
    · rw [readFrom_noValue rfl fun value hv => hword ⟨value, hv⟩] at h
      cases h

end Grammar

end ScriptBlocks.Arguments
