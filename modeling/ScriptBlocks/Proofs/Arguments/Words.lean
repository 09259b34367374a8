import ScriptBlocks.Arguments.Grammar
import ScriptBlocks.Proofs.Entries
import ScriptBlocks.Proofs.Text.Search

/-!
# What arguments are

`Grammar.Classified` lists the cases in which an argument is an operand, an option, unknown or
refused (`Grammar.classified`, `Grammar.Classified.classify_eq`).  An argument with two leading
dashes stands for an option through `Grammar.optionPart`, what it has before its first `=`: it is
read as one of the options whose names begin with that part (`Grammar.classify_of_unique`,
`Grammar.of_classify_eq_option`).  If there is none, the argument is an operand where it holds a
blank, and else unknown (`Grammar.classify_of_no_option`).  What is an operand to a grammar stays
one with fewer options (`Grammar.classify_operand_of_subset`).
-/

namespace ScriptBlocks.Arguments

open Text

namespace Grammar

variable {α : Type} {g g' : Grammar α} {s t n : String} {j : Option String} {a : Action α}
  {w : Word α} {e : Stop}

/-- What an argument has before its first `=`. -/
def optionPart (s : List Char) : List Char := s.takeWhile (· != '=')

/-- The text after the first `=` of an argument, if it has one. -/
def joinedPart? (s : List Char) : Option String := (splitJoined? s).map fun p => String.ofList p.2

/-- What an option with two dashes begins with. -/
def dashes : List Char := ['-', '-']

/-- The arguments before the separator, after which all are operands. -/
def beforeSeparator (arguments : List String) : List String := arguments.takeWhile (· != "--")

/-! ### The two parts of an argument -/

section

variable {p v s : List Char}

theorem optionPart_isPrefix (s : List Char) : optionPart s <+: s := List.takeWhile_prefix _

theorem optionPart_append (h : '=' ∉ p) : optionPart (p ++ '=' :: v) = p :=
  takeWhile_bne_append h v

theorem optionPart_of_notMem (h : '=' ∉ p) : optionPart p = p :=
  List.takeWhile_eq_self_iff.2 (forall_bne_of_notMem h)

theorem prefix_optionPart (h : '=' ∉ p) (hp : p <+: s) : p <+: optionPart s := by
  obtain ⟨t, rfl⟩ := hp
  rw [optionPart, List.takeWhile_append_of_pos (forall_bne_of_notMem h)]
  exact List.prefix_append _ _

theorem splitJoined?_append (h : '=' ∉ p) : splitJoined? (p ++ '=' :: v) = some (p, v) := by
  rw [splitJoined?, span_bne_append h]

theorem splitJoined?_of_notMem (h : '=' ∉ p) : splitJoined? p = none := by
  rw [splitJoined?, span_bne_of_notMem h]

theorem splitJoined?_cases (s : List Char) :
    ('=' ∉ s ∧ splitJoined? s = none ∧ optionPart s = s) ∨
      ∃ v, s = optionPart s ++ '=' :: v ∧ splitJoined? s = some (optionPart s, v) := by
  by_cases h : '=' ∈ s
  · obtain ⟨p, v, rfl, hp⟩ := List.eq_append_cons_of_mem h
    exact .inr ⟨v, by rw [optionPart_append hp], by rw [optionPart_append hp, splitJoined?_append hp]⟩
  · exact .inl ⟨h, splitJoined?_of_notMem h, optionPart_of_notMem h⟩

theorem joinedPart?_append (h : '=' ∉ p) : joinedPart? (p ++ '=' :: v) = some (String.ofList v) := by
  rw [joinedPart?, splitJoined?_append h, Option.map_some]

theorem joinedPart?_of_notMem (h : '=' ∉ p) : joinedPart? p = none := by
  rw [joinedPart?, splitJoined?_of_notMem h, Option.map_none]

end

/-! ### Looking up options -/

/-- The options whose names begin with the text. -/
def optionsFrom (g : Grammar α) (p : List Char) : List (String × Action α) :=
  g.options.filter fun o => p.isPrefixOf o.1.toList

/-- No option has a `=` in its name. -/
def PlainNames (g : Grammar α) : Prop := ∀ o ∈ g.options, '=' ∉ o.1.toList

instance (g : Grammar α) : Decidable g.PlainNames :=
  inferInstanceAs (Decidable (∀ o ∈ g.options, '=' ∉ o.1.toList))

theorem longMatches_eq (g : Grammar α) (s : List Char) :
    g.longMatches s = (g.optionsFrom (optionPart s)).map fun o => (o.1, o.2, joinedPart? s) := by
  rw [optionsFrom, ← List.filterMap_eq_map, List.filterMap_filter]
  obtain ⟨-, hnone, hp⟩ | ⟨v, -, hsome⟩ := splitJoined?_cases s
  · simp only [longMatches, hnone, hp, joinedPart?, Option.map_none]
    rfl
  · simp only [longMatches, hsome, joinedPart?, Option.map_some]
    rfl

/-- An exact reading is one as the beginning of a name. -/
theorem of_exactMatch? (hg : g.PlainNames) (h : g.exactMatch? s = some (n, a, j)) :
    (n, a) ∈ g.options ∧ optionPart s.toList = n.toList ∧ j = joinedPart? s.toList := by
  unfold exactMatch? at h
  split at h
  · next b hb =>
    cases h
    have hs := hg _ (Entries.mem_of_lookup hb)
    exact ⟨Entries.mem_of_lookup hb, optionPart_of_notMem hs, (joinedPart?_of_notMem hs).symm⟩
  · obtain ⟨-, hnone, -⟩ | ⟨v, -, hsome⟩ := splitJoined?_cases s.toList
    · rw [hnone] at h
      cases h
    · rw [hsome] at h
      cases hb : g.options.lookup (String.ofList (optionPart s.toList)) with
      | none => simp [hb] at h
      | some b =>
        simp only [hb, Option.bind_eq_bind, Option.bind_some, Option.pure_def, Option.some.injEq,
          Prod.mk.injEq] at h
        obtain ⟨rfl, rfl, rfl⟩ := h
        exact ⟨Entries.mem_of_lookup hb, String.toList_ofList.symm, by rw [joinedPart?, hsome]; rfl⟩

theorem exactMatch?_eq_none (hg : g.PlainNames)
    (h : ∀ o ∈ g.options, optionPart s.toList ≠ o.1.toList) : g.exactMatch? s = none := by
  rcases he : g.exactMatch? s with _ | ⟨n, a, j⟩
  · rfl
  · obtain ⟨hmem, hpart, -⟩ := of_exactMatch? hg he
    exact absurd hpart (h _ hmem)

theorem optionPart_ne_of_exactMatch? (h : g.exactMatch? s = none) :
    ∀ o ∈ g.options, optionPart s.toList ≠ o.1.toList := by
  intro o ho hpart
  have hne : ∀ {k : String}, g.options.lookup k = none → k ≠ o.1 := fun hk =>
    by simpa using List.lookup_eq_none_iff.1 hk o ho
  unfold exactMatch? at h
  split at h
  · cases h
  · next hnone =>
    obtain ⟨-, -, hs⟩ | ⟨v, -, hsome⟩ := splitJoined?_cases s.toList
    · exact hne hnone (String.toList_injective (hs.symm.trans hpart))
    · rw [hsome] at h
      cases hb : g.options.lookup (String.ofList (optionPart s.toList)) with
      | none => exact hne hb (by rw [hpart, String.ofList_toList])
      | some b => simp [hb] at h

theorem of_mem_shortMatches {s : List Char} (h : (n, a, j) ∈ g.shortMatches s) :
    (n, a) ∈ g.options ∧ (n.toList = s.take 2 ∨ s <+: n.toList) := by
  obtain ⟨⟨n', a'⟩, hmem, ho⟩ := List.mem_filterMap.1 h
  simp only at ho
  split at ho
  · next heq =>
    cases ho
    exact ⟨hmem, .inl heq⟩
  · split at ho
    · next hp =>
      cases ho
      exact ⟨hmem, .inr (List.isPrefixOf_iff_prefix.1 hp)⟩
    · cases ho

/-! ### The cases of an argument -/

/-- The readings of an argument as the beginning of an option's name. -/
def partialMatches (g : Grammar α) (s : List Char) : List (Match α) :=
  if dashes <+: s then g.longMatches s else g.shortMatches s

/-- What an argument is classified as, with the reason for it. -/
inductive Classified (g : Grammar α) (s : String) : Except Stop (Word α) → Prop
  /-- No dash is followed by something. -/
  | plain : (∀ c t, s.toList ≠ '-' :: c :: t) → Classified g s (.ok (.operand s))
  /-- The argument has the whole name of an option. -/
  | exact {c : Char} {t : List Char} {n : String} {a : Action α} {j : Option String} :
    s.toList = '-' :: c :: t → g.exactMatch? s = some (n, a, j) →
      Classified g s (.ok (.option s n a j))
  /-- It begins the name of one option. -/
  | unique {c : Char} {t : List Char} {n : String} {a : Action α} {j : Option String} :
    s.toList = '-' :: c :: t → g.exactMatch? s = none →
      g.partialMatches s.toList = [(n, a, j)] → Classified g s (.ok (.option s n a j))
  /-- It begins the names of several options. -/
  | ambiguous {c : Char} {t : List Char} : s.toList = '-' :: c :: t → g.exactMatch? s = none →
      2 ≤ (g.partialMatches s.toList).length → Classified g s (.error .usage)
  /-- It is no option, but may be an operand. -/
  | operand {c : Char} {t : List Char} : s.toList = '-' :: c :: t → g.exactMatch? s = none →
      g.partialMatches s.toList = [] →
      (isNegativeNumber s.toList || s.toList.contains ' ') = true → Classified g s (.ok (.operand s))
  | unknown {c : Char} {t : List Char} : s.toList = '-' :: c :: t → g.exactMatch? s = none →
      g.partialMatches s.toList = [] →
      (isNegativeNumber s.toList || s.toList.contains ' ') = false →
      Classified g s (.ok (.unknown s))

/-- An argument with something after a dash is looked up among the options. -/
theorem classify_eq_match {c : Char} {t : List Char} (hs : s.toList = '-' :: c :: t) :
    g.classify s =
      match g.exactMatch? s with
      | some (n, a, j) => .ok (.option s n a j)
      | none =>
        match g.partialMatches s.toList with
        | [(n, a, j)] => .ok (.option s n a j)
        | _ :: _ :: _ => .error .usage
        | [] =>
          if isNegativeNumber s.toList || s.toList.contains ' ' then .ok (.operand s)
          else .ok (.unknown s) := by
  have hdashes : dashes <+: s.toList ↔ c = '-' := by
    rw [hs, dashes, List.cons_prefix_cons, List.cons_prefix_cons]
    simp [eq_comm]
  rw [partialMatches, if_congr hdashes rfl rfl]
  unfold classify
  rw [hs]
  rfl

theorem classified (g : Grammar α) (s : String) : Classified g s (g.classify s) := by
  by_cases hs : ∃ c t, s.toList = '-' :: c :: t
  · obtain ⟨c, t, hs⟩ := hs
    rw [classify_eq_match hs]
    rcases he : g.exactMatch? s with _ | ⟨n, a, j⟩
    · rcases hm : g.partialMatches s.toList with _ | ⟨⟨n, a, j⟩, _ | ⟨m, ms⟩⟩
      · by_cases hoperand : (isNegativeNumber s.toList || s.toList.contains ' ') = true
        · simp only [if_pos hoperand]
          exact .operand hs he hm hoperand
        · simp only [if_neg hoperand]
          exact .unknown hs he hm (Bool.not_eq_true _ ▸ hoperand)
      · exact .unique hs he hm
      · exact .ambiguous hs he (by simp [hm])
    · exact .exact hs he
  · have hplain : ∀ c t, s.toList ≠ '-' :: c :: t := fun c t h => hs ⟨c, t, h⟩
    unfold classify
    split
    · next h => exact absurd h (hplain _ _)
    · exact .plain hplain

theorem Classified.classify_eq {r : Except Stop (Word α)} (h : Classified g s r) :
    g.classify s = r := by
  cases h with
  | plain hs =>
    unfold classify
    split
    · next h => exact absurd h (hs _ _)
    · rfl
  | exact hs he => rw [classify_eq_match hs, he]
  | unique hs he hm => rw [classify_eq_match hs, he, hm]
  | ambiguous hs he hm =>
    rw [classify_eq_match hs, he]
    rcases hms : g.partialMatches s.toList with _ | ⟨m, _ | ⟨m', ms⟩⟩
    · simp [hms] at hm
    · simp [hms] at hm
    · rfl
  | operand hs he hm hoperand =>
    rw [classify_eq_match hs, he, hm]
    exact if_pos hoperand
  | unknown hs he hm hunknown =>
    rw [classify_eq_match hs, he, hm]
    exact if_neg (Bool.not_eq_true _ ▸ hunknown)

theorem classified_of_classify {r : Except Stop (Word α)} (h : g.classify s = r) :
    Classified g s r :=
  h ▸ classified g s

/-! ### Arguments with two dashes -/

theorem isDigits_dash (s : List Char) : isDigits ('-' :: s) = false := by
  have : (Text.digitValue? '-').isSome = false := by decide
  simp [isDigits, this]

theorem isNegativeNumber_of_dashes {s : List Char} (h : dashes <+: s) :
    isNegativeNumber s = false := by
  obtain ⟨t, rfl⟩ := h
  -- The line feed that may end a number is not the second dash.
  have hcut : ∃ u, (if ('-' :: t).getLast? = some '\n' then ('-' :: t).dropLast else '-' :: t) =
      '-' :: u := by
    split
    · next hlast =>
      cases t with
      | nil => cases hlast
      | cons c t => exact ⟨_, List.dropLast_cons_cons⟩
    · exact ⟨t, rfl⟩
  obtain ⟨u, hu⟩ := hcut
  simp only [dashes, List.cons_append, List.nil_append, isNegativeNumber, hu,
    List.span_eq_takeWhile_dropWhile]
  split
  · simp [isDigits_dash]
  · simp [isDigits_dash]

section

variable (hs : dashes <+: s.toList)

include hs

theorem exists_eq_of_dashes : ∃ t, s.toList = '-' :: '-' :: t := hs.imp fun _ => Eq.symm

theorem partialMatches_of_dashes :
    g.partialMatches s.toList =
      (g.optionsFrom (optionPart s.toList)).map fun o => (o.1, o.2, joinedPart? s.toList) := by
  rw [partialMatches, if_pos hs, longMatches_eq]

theorem classify_of_no_option (hg : g.PlainNames)
    (h : ∀ o ∈ g.options, ¬ optionPart s.toList <+: o.1.toList) :
    g.classify s = if s.toList.contains ' ' then .ok (.operand s) else .ok (.unknown s) := by
  obtain ⟨t, ht⟩ := exists_eq_of_dashes hs
  have hexact := exactMatch?_eq_none hg fun o ho he => h o ho (he ▸ List.prefix_rfl)
  have hnone : g.partialMatches s.toList = [] := by
    rw [partialMatches_of_dashes hs, List.map_eq_nil_iff, optionsFrom, List.filter_eq_nil_iff]
    exact fun o ho hp => h o ho (List.isPrefixOf_iff_prefix.1 hp)
  have hneg : isNegativeNumber s.toList = false := isNegativeNumber_of_dashes hs
  rw [classify_eq_match ht, hexact, hnone, hneg, Bool.false_or]

theorem classify_of_unique (hg : g.PlainNames)
    (h : g.optionsFrom (optionPart s.toList) = [(n, a)]) :
    g.classify s = .ok (.option s n a (joinedPart? s.toList)) := by
  obtain ⟨t, ht⟩ := exists_eq_of_dashes hs
  rcases he : g.exactMatch? s with _ | ⟨n', a', j⟩
  · exact (Classified.unique ht he (by rw [partialMatches_of_dashes hs, h]; rfl)).classify_eq
  · obtain ⟨hmem, hpart, rfl⟩ := of_exactMatch? hg he
    have hfrom : (n', a') ∈ g.optionsFrom (optionPart s.toList) :=
      List.mem_filter.2 ⟨hmem, by simp [hpart]⟩
    rw [h, List.mem_singleton] at hfrom
    cases hfrom
    exact (Classified.exact ht he).classify_eq

theorem classify_of_ambiguous (hg : g.PlainNames)
    (hpart : ∀ o ∈ g.options, optionPart s.toList ≠ o.1.toList)
    (h : 2 ≤ (g.optionsFrom (optionPart s.toList)).length) : g.classify s = .error .usage := by
  obtain ⟨t, ht⟩ := exists_eq_of_dashes hs
  refine (Classified.ambiguous ht (exactMatch?_eq_none hg hpart) ?_).classify_eq
  rwa [partialMatches_of_dashes hs, List.length_map]

end

/-! ### All arguments -/

theorem text_of_classify (h : g.classify s = .ok w) : w.text = s := by
  cases classified_of_classify h <;> rfl

/-- With one option there is nothing to take an argument for but that one. -/
theorem classify_ne_error (hg : g.options.length ≤ 1) : g.classify s ≠ .error e := by
  intro h
  cases classified_of_classify h with
  | ambiguous _ _ hmatches =>
    unfold partialMatches at hmatches
    split at hmatches
    · rw [longMatches_eq, List.length_map] at hmatches
      exact absurd (hmatches.trans (List.length_filter_le _ _)) (by omega)
    · exact absurd (hmatches.trans (List.length_filterMap_le _ _)) (by omega)

/-- An option whose name has two dashes is read from the beginning of its name. -/
theorem of_classify_eq_option (hg : g.PlainNames) (h : g.classify s = .ok (.option t n a j)) :
    (n, a) ∈ g.options ∧ (dashes <+: n.toList →
      dashes <+: s.toList ∧ optionPart s.toList <+: n.toList ∧ j = joinedPart? s.toList) := by
  cases classified_of_classify h with
  | exact _ he =>
    obtain ⟨hmem, hpart, hj⟩ := of_exactMatch? hg he
    refine ⟨hmem, fun hn => ⟨?_, hpart ▸ List.prefix_rfl, hj⟩⟩
    exact (hpart ▸ hn).trans (optionPart_isPrefix s.toList)
  | unique hs _ hmatches =>
    have hmem : (n, a, j) ∈ g.partialMatches s.toList := hmatches ▸ List.mem_singleton_self _
    by_cases hd : dashes <+: s.toList
    · rw [partialMatches_of_dashes hd] at hmem
      obtain ⟨o, ho, heq⟩ := List.mem_map.1 hmem
      cases heq
      obtain ⟨hmem, hp⟩ := List.mem_filter.1 ho
      exact ⟨hmem, fun _ => ⟨hd, List.isPrefixOf_iff_prefix.1 hp, rfl⟩⟩
    · rw [partialMatches, if_neg hd] at hmem
      obtain ⟨hmem, hshort⟩ := of_mem_shortMatches hmem
      refine ⟨hmem, fun hn => absurd ?_ hd⟩
      rcases hshort with htake | hp
      · exact hn.trans (htake ▸ List.take_prefix 2 s.toList)
      · exact List.prefix_of_prefix_length_le hn hp (by simp [hs, dashes])

/-- What is no option is none either where there are fewer. -/
theorem partialMatches_eq_nil_of_subset {s : List Char} (hsub : g'.options ⊆ g.options)
    (h : g.partialMatches s = []) : g'.partialMatches s = [] := by
  unfold partialMatches at h ⊢
  by_cases hd : dashes <+: s
  · rw [if_pos hd, longMatches_eq, List.map_eq_nil_iff, optionsFrom, List.filter_eq_nil_iff] at h ⊢
    exact fun o ho => h o (hsub ho)
  · rw [if_neg hd, shortMatches, List.filterMap_eq_nil_iff] at h ⊢
    exact fun o ho => h o (hsub ho)

theorem classify_operand_of_subset (hg : g'.PlainNames) (hsub : g'.options ⊆ g.options)
    (h : g.classify s = .ok (.operand s)) : g'.classify s = .ok (.operand s) := by
  cases classified_of_classify h with
  | plain hs => exact (Classified.plain hs).classify_eq
  | operand hs he hm hoperand =>
    have hne := optionPart_ne_of_exactMatch? he
    exact (Classified.operand hs (exactMatch?_eq_none hg fun o ho => hne o (hsub ho))
      (partialMatches_eq_nil_of_subset hsub hm) hoperand).classify_eq

/-! ### The arguments of a command -/

section

variable {l : List String} {ws : List (Word α)}

theorem beforeSeparator_separator (l : List String) : beforeSeparator ("--" :: l) = [] :=
  List.takeWhile_cons_of_neg (by simp)

theorem beforeSeparator_cons (hs : s ≠ "--") : beforeSeparator (s :: l) = s :: beforeSeparator l :=
  List.takeWhile_cons_of_pos (by simpa using hs)

theorem mem_of_mem_beforeSeparator (h : s ∈ beforeSeparator l) : s ∈ l :=
  (List.takeWhile_prefix _).subset h

theorem words_separator (g : Grammar α) (l : List String) :
    g.words ("--" :: l) = .ok (.separator :: l.map .operand) := by
  rw [words, if_pos rfl]

theorem words_cons (hs : s ≠ "--") (hw : g.classify s = .ok w) :
    g.words (s :: l) = (g.words l).map (w :: ·) := by
  rw [words, if_neg hs, hw]
  cases g.words l <;> rfl

theorem words_of_classify_error (hs : s ≠ "--") (hw : g.classify s = .error e) :
    g.words (s :: l) = .error e := by
  rw [words, if_neg hs, hw]
  rfl

theorem exists_of_words_cons (hs : s ≠ "--") (h : g.words (s :: l) = .ok ws) :
    ∃ w ws', g.classify s = .ok w ∧ g.words l = .ok ws' ∧ ws = w :: ws' := by
  rcases hw : g.classify s with e | w
  · rw [words_of_classify_error hs hw] at h
    cases h
  · rw [words_cons hs hw] at h
    rcases hws : g.words l with e | ws'
    · rw [hws] at h
      cases h
    · rw [hws] at h
      cases h
      exact ⟨w, ws', rfl, rfl, rfl⟩

/-- The words have what each argument before the separator is classified as. -/
theorem exists_mem_of_words (h : g.words l = .ok ws) (hs : s ∈ beforeSeparator l) :
    ∃ w ∈ ws, g.classify s = .ok w := by
  induction l generalizing ws with
  | nil => cases hs
  | cons t l ih =>
    by_cases ht : t = "--"
    · rw [ht, beforeSeparator_separator] at hs
      cases hs
    · rw [beforeSeparator_cons ht] at hs
      obtain ⟨w, ws, hw, hws, rfl⟩ := exists_of_words_cons ht h
      rcases List.mem_cons.1 hs with rfl | hs
      · exact ⟨w, List.mem_cons_self, hw⟩
      · obtain ⟨w', hmem, hw'⟩ := ih hws hs
        exact ⟨w', List.mem_cons_of_mem w hmem, hw'⟩

theorem text_of_words (h : g.words l = .ok ws) : ws.map Word.text = l := by
  induction l generalizing ws with
  | nil =>
    cases h
    rfl
  | cons s l ih =>
    by_cases hs : s = "--"
    · subst hs
      rw [words_separator] at h
      cases h
      simp [Function.comp_def, Word.text]
    · obtain ⟨w, ws', hw, hws, rfl⟩ := exists_of_words_cons hs h
      rw [List.map_cons, text_of_classify hw, ih hws]

end

end Grammar

end ScriptBlocks.Arguments
