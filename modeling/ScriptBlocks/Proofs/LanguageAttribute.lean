import ScriptBlocks.Proofs.Document
import ScriptBlocks.Proofs.Language

/-!
# The attribute that names the language

The inside of a tag names a token as its language if its first `lang` is followed by `=` and a
value, with nothing but blanks around the `=` (`Tag.NamesLanguage`).  The token is what stands
between the quotes of the value, or without quotes all that comes before a blank or `>`.  That is
the whole grammar: an inside of any other form names the default language, and blanks around it do
not matter (`Tag.language_grammar`).
-/

namespace ScriptBlocks.Tag

open Text

/-- The name of the attribute, which may be the end of a longer one. -/
def attributeName : List Char := ['l', 'a', 'n', 'g']

/-- Whether a value without quotes ends before this character. -/
def endsValue (c : Char) : Bool := isBlank c || c = '>'

/-- The text starts with a quote. -/
def StartsWithQuote (s : List Char) : Prop :=
  ∃ (quote : Quote) (rest : List Char), s = quote.char :: rest

/-- The text starts with a value that holds the token. -/
inductive HoldsToken : List Char → List Char → Prop
  /-- The token stands between a quote and the next one of its kind. -/
  | quoted (quote : Quote) {token rest : List Char} (ne_nil : token ≠ [])
    (no_quote : quote.char ∉ token) :
    HoldsToken (quote.char :: (token ++ quote.char :: rest)) token
  /-- The token does not start with a quote and is the longest without a blank and `>`. -/
  | bare {token rest : List Char} (ne_nil : token ≠ []) (no_quote : ¬ StartsWithQuote token)
    (inside : ∀ c ∈ token, endsValue c = false)
    (boundary : ∀ c, rest.head? = some c → endsValue c = true) :
    HoldsToken (token ++ rest) token

/-- The inside of a tag names the token as its language. -/
inductive NamesLanguage : List Char → List Char → Prop
  | intro {before blanks blanks' value token : List Char}
    (first : ¬ attributeName <:+: before) (allBlank : AllBlank blanks)
    (allBlank' : AllBlank blanks') (trimmed : StartsTrimmed value)
    (holds : HoldsToken value token) :
    NamesLanguage (before ++ (attributeName ++ (blanks ++ '=' :: (blanks' ++ value)))) token

variable {s t before rest inside token value w w' : List Char} {c : Char}

/-! ### Quotes and ends -/

theorem startsWithQuote_append (h : s ≠ []) (t : List Char) :
    StartsWithQuote (s ++ t) ↔ StartsWithQuote s := by
  obtain ⟨c, s, rfl⟩ := List.exists_cons_of_ne_nil h
  simp [StartsWithQuote]

theorem quote_notMem_of_allBlank (quote : Quote) (hw : AllBlank w) : quote.char ∉ w := by
  intro hmem
  have := hw quote.char hmem
  rw [isBlank_quote quote.char_eq] at this
  cases this

theorem not_startsWithQuote_of_allBlank (hw : AllBlank w) : ¬ StartsWithQuote w := by
  rintro ⟨quote, rest, rfl⟩
  exact quote_notMem_of_allBlank quote hw List.mem_cons_self

/-- A value without quotes ends where it is told to end. -/
theorem takeWhile_append_boundary (h : ∀ c, rest.head? = some c → endsValue c = true)
    (s : List Char) :
    ((s ++ rest).takeWhile fun c => !endsValue c) = s.takeWhile fun c => !endsValue c := by
  induction s with
  | nil =>
    cases rest with
    | nil => rfl
    | cons c rest => exact List.takeWhile_cons_of_neg (by simp [h c rfl])
  | cons c s ih => simp only [List.cons_append, List.takeWhile_cons, ih]

theorem endsValue_of_head? (hw : AllBlank w) : ∀ c, w.head? = some c → endsValue c = true := by
  intro c hc
  simp [endsValue, hw c (List.mem_of_head? hc)]

/-! ### Values -/

theorem valueToken_bare (h : ¬ StartsWithQuote s) :
    valueToken s = tokenOrDefault (s.takeWhile fun c => !endsValue c) := by
  cases s with
  | nil => rfl
  | cons c s =>
    have hc : ¬ (c = '"' ∨ c = '\'') := by
      rintro (rfl | rfl)
      · exact h ⟨.double, s, rfl⟩
      · exact h ⟨.single, s, rfl⟩
    rw [valueToken, if_neg hc]
    congr 2
    funext d
    simp [endsValue, bne, beq_eq_decide]

theorem HoldsToken.valueToken_eq (h : HoldsToken s token) : valueToken s = String.ofList token := by
  cases h with
  | quoted quote ne_nil no_quote => exact valueToken_quoted quote.char_eq ne_nil no_quote
  | bare ne_nil no_quote inside boundary =>
    have hinside : (token.takeWhile fun c => !endsValue c) = token :=
      List.takeWhile_eq_self_iff.2 fun c hc => by rw [inside c hc, Bool.not_false]
    rw [valueToken_bare (mt (startsWithQuote_append ne_nil _).1 no_quote),
      takeWhile_append_boundary boundary, hinside, tokenOrDefault_of_ne_nil ne_nil]

/-- A text that starts with no value gives the default language. -/
theorem exists_holdsToken_or (s : List Char) :
    (∃ token, HoldsToken s token) ∨ valueToken s = defaultLanguage := by
  by_cases hq : StartsWithQuote s
  · obtain ⟨quote, rest, rfl⟩ := hq
    rw [valueToken_quote quote.char_eq]
    by_cases hmem : quote.char ∈ rest
    · obtain ⟨token, after, rfl, hnot⟩ := List.eq_append_cons_of_mem hmem
      by_cases hnil : token = []
      · right
        simp [hnil, tokenOrDefault]
      · exact Or.inl ⟨token, .quoted quote hnil hnot⟩
    · exact Or.inr (if_neg hmem)
  · rw [valueToken_bare hq]
    have happend := List.takeWhile_append_dropWhile (p := fun c => !endsValue c) (l := s)
    generalize htoken : (s.takeWhile fun c => !endsValue c) = token at happend ⊢
    by_cases hnil : token = []
    · right
      rw [hnil]
      rfl
    · left
      rw [← happend] at hq ⊢
      refine ⟨token, .bare hnil (mt (startsWithQuote_append hnil _).2 hq) ?_ ?_⟩
      · intro c hc
        rw [← htoken] at hc
        simpa using List.mem_takeWhile_imp hc
      · intro c hc
        have := List.head?_dropWhile_not (fun c => !endsValue c) s
        simpa [hc] using this

/-- Blanks after a value do not matter. -/
theorem valueToken_append (s : List Char) (hw : AllBlank w) :
    valueToken (s ++ w) = valueToken s := by
  by_cases hq : StartsWithQuote s
  · obtain ⟨quote, rest, rfl⟩ := hq
    rw [List.cons_append, valueToken_quote quote.char_eq, valueToken_quote quote.char_eq]
    by_cases hmem : quote.char ∈ rest
    · obtain ⟨token, after, rfl, htoken⟩ := List.eq_append_cons_of_mem hmem
      rw [if_pos hmem, if_pos (List.mem_append_left w hmem), List.append_assoc, List.cons_append,
        takeWhile_bne_append htoken, takeWhile_bne_append htoken]
    · rw [if_neg hmem, if_neg]
      exact List.not_mem_append hmem (quote_notMem_of_allBlank quote hw)
  · have hq' : ¬ StartsWithQuote (s ++ w) := by
      by_cases hnil : s = []
      · rw [hnil]
        exact not_startsWithQuote_of_allBlank hw
      · rwa [startsWithQuote_append hnil]
    rw [valueToken_bare hq, valueToken_bare hq', takeWhile_append_boundary (endsValue_of_head? hw)]

/-! ### The attribute -/

/-- The language that the text after the name of the attribute gives. -/
def languageAfter (rest : List Char) : String :=
  match trimStart rest with
  | '=' :: value => valueToken (trimStart value)
  | _ => defaultLanguage

theorem language_eq (inside : List Char) :
    language inside =
      match find? attributeName (trim inside) 0 with
      | none => defaultLanguage
      | some i => languageAfter ((trim inside).drop (i + attributeName.length)) := rfl

theorem languageAfter_equals (hw : AllBlank w) (value : List Char) :
    languageAfter (w ++ '=' :: value) = valueToken (trimStart value) := by
  have heq : trimStart (w ++ '=' :: value) = '=' :: value := by
    rw [hw.trimStart_append, trimStart_cons (by decide)]
  unfold languageAfter
  rw [heq]
  rfl

theorem languageAfter_of_head? (h : (trimStart rest).head? ≠ some '=') :
    languageAfter rest = defaultLanguage := by
  unfold languageAfter
  split
  · next heq =>
    rw [heq] at h
    exact absurd rfl h
  · rfl

/-- What follows the name of the attribute gives a language by an `=` with blanks before it. -/
theorem exists_equals_or (rest : List Char) :
    (∃ w value, AllBlank w ∧ rest = w ++ '=' :: value) ∨ (trimStart rest).head? ≠ some '=' := by
  by_cases h : (trimStart rest).head? = some '='
  · obtain ⟨value, hvalue⟩ := List.head?_eq_some_iff.1 h
    obtain ⟨w, hw, hrest⟩ := exists_append_trimStart rest
    exact Or.inl ⟨w, value, hw, hvalue ▸ hrest⟩
  · exact Or.inr h

theorem languageAfter_trimEnd (rest : List Char) :
    languageAfter (trimEnd rest) = languageAfter rest := by
  rcases exists_equals_or rest with ⟨w, value, hw, rfl⟩ | h
  · obtain ⟨w', hw', hvalue⟩ := exists_trimEnd_append (trimStart value)
    rw [trimEnd_append_cons (by decide), languageAfter_equals hw, languageAfter_equals hw,
      trimStart_trimEnd]
    conv_rhs => rw [hvalue, valueToken_append _ hw']
  · rw [languageAfter_of_head? h, languageAfter_of_head?]
    rw [trimStart_trimEnd]
    intro hhead
    obtain ⟨w', hw'⟩ := trimEnd_isPrefix (trimStart rest)
    rw [← hw', List.head?_append, hhead] at h
    exact h rfl

theorem find?_attributeName (h : ¬ attributeName <:+: before) (rest : List Char) :
    find? attributeName (before ++ (attributeName ++ rest)) 0 = some before.length := by
  have hapart : Apart attributeName before attributeName :=
    apart_self (r := ['l', 'a', 'n']) (by decide)
  rw [← List.append_assoc]
  exact find?_append (by decide) (find?_of_not_isInfix h hapart)

theorem trim_attributeName (before rest : List Char) :
    trim (before ++ (attributeName ++ rest)) =
      trimStart before ++ (attributeName ++ trimEnd rest) := by
  have hstart := trimStart_append_cons (c := 'l') (by decide) before (['a', 'n', 'g'] ++ rest)
  have hend := trimEnd_append_cons (c := 'g') (by decide) (trimStart before ++ ['l', 'a', 'n']) rest
  rw [List.append_assoc, List.append_assoc] at hend
  exact (congrArg trimEnd hstart).trans hend

/-- The first `lang` decides, and blanks at the ends do not matter to what follows it. -/
theorem language_append (h : ¬ attributeName <:+: before) (rest : List Char) :
    language (before ++ (attributeName ++ rest)) = languageAfter rest := by
  have hbefore : ¬ attributeName <:+: trimStart before :=
    fun hmem => h (hmem.trans (List.dropWhile_suffix _).isInfix)
  rw [language_eq, trim_attributeName, find?_attributeName hbefore]
  simp only [← List.append_assoc, ← List.length_append, List.drop_left]
  exact languageAfter_trimEnd rest

theorem language_of_not_isInfix (h : ¬ attributeName <:+: inside) :
    language inside = defaultLanguage := by
  have htrim : trim inside <:+: inside :=
    (trimEnd_isPrefix _).isInfix.trans (List.dropWhile_suffix _).isInfix
  have hfind : find? attributeName (trim inside) 0 = none :=
    find?_eq_iff.2 fun j _ hocc => h (hocc.isInfix.trans htrim)
  rw [language_eq, hfind]

theorem parts_unique {before' rest' : List Char} (h : ¬ attributeName <:+: before)
    (h' : ¬ attributeName <:+: before')
    (heq : before ++ (attributeName ++ rest) = before' ++ (attributeName ++ rest')) :
    before = before' ∧ rest = rest' := by
  have hlength : before.length = before'.length := by
    have hfind := find?_attributeName h rest
    rw [heq, find?_attributeName h' rest'] at hfind
    exact (Option.some.inj hfind).symm
  obtain ⟨hbefore, hrest⟩ := List.append_inj heq hlength
  exact ⟨hbefore, List.append_cancel_left hrest⟩

/-! ### The grammar -/

theorem NamesLanguage.language_eq (h : NamesLanguage inside token) :
    language inside = String.ofList token := by
  cases h with
  | intro first allBlank allBlank' trimmed holds =>
    rw [language_append first, languageAfter_equals allBlank, allBlank'.trimStart_append,
      trimmed.trimStart_eq, holds.valueToken_eq]

theorem exists_namesLanguage_or (inside : List Char) :
    (∃ token, NamesLanguage inside token) ∨ language inside = defaultLanguage := by
  by_cases hname : attributeName <:+: inside
  · obtain ⟨before, rest, rfl, hbefore⟩ := exists_append_of_isInfix (by decide) hname
    rw [language_append hbefore]
    rcases exists_equals_or rest with ⟨w, value, hw, rfl⟩ | h
    · rw [languageAfter_equals hw]
      refine (exists_holdsToken_or (trimStart value)).imp_left ?_
      rintro ⟨token, htoken⟩
      obtain ⟨w', hw', hvalue⟩ := exists_append_trimStart value
      rw [hvalue]
      exact ⟨token, .intro hbefore hw hw' (startsTrimmed_trimStart value) htoken⟩
    · exact Or.inr (languageAfter_of_head? h)
  · exact Or.inr (language_of_not_isInfix hname)

theorem NamesLanguage.ne_nil (h : NamesLanguage inside token) : token ≠ [] := by
  cases h with
  | intro _ _ _ _ holds => cases holds <;> assumption

/-- The language that the inside of a tag gives is told by the grammar: the token that it names, or
the default language where it names none.  It is never empty, and blanks around the inside do not
matter. -/
theorem language_grammar (inside : List Char) :
    (¬ attributeName <:+: inside → language inside = defaultLanguage) ∧
    (attributeName <:+: inside → ∃! parts : List Char × List Char,
      inside = parts.1 ++ (attributeName ++ parts.2) ∧ ¬ attributeName <:+: parts.1) ∧
    (∀ token, NamesLanguage inside token → language inside = String.ofList token) ∧
    ((¬ ∃ token, NamesLanguage inside token) → language inside = defaultLanguage) ∧
    language inside ≠ "" ∧
    ∀ w w', AllBlank w → AllBlank w' → language (w ++ inside ++ w') = language inside := by
  refine ⟨language_of_not_isInfix, fun h => ?_, fun _ => NamesLanguage.language_eq,
    (exists_namesLanguage_or inside).resolve_left, ?_, fun w w' hw hw' => ?_⟩
  · obtain ⟨before, rest, hinside, hbefore⟩ := exists_append_of_isInfix (by decide) h
    refine ⟨(before, rest), ⟨hinside, hbefore⟩, ?_⟩
    rintro ⟨before', rest'⟩ ⟨hinside', hbefore'⟩
    obtain ⟨rfl, rfl⟩ := parts_unique hbefore' hbefore (hinside'.symm.trans hinside)
    rfl
  · rcases exists_namesLanguage_or inside with ⟨token, htoken⟩ | hdefault
    · rw [htoken.language_eq, Ne, String.ofList_eq_empty_iff]
      exact htoken.ne_nil
    · rw [hdefault]
      decide
  · rw [language_eq, language_eq, trim_append_append hw hw']

/-- The inside of a tag with a longer name that ends in `lang`, an angle between the quotes of its
value, and a second attribute after it. -/
def dataLanguage : List Char :=
  ['d', 'a', 't', 'a', '-'] ++ (attributeName ++ ([' '] ++ '=' :: ([' '] ++
    '\'' :: (['a', '>'] ++ '\'' :: ([' '] ++ attributeName ++ ['=', 'b'])))))

theorem language_grammar_dataLanguage :
    NamesLanguage dataLanguage ['a', '>'] ∧ language dataLanguage = "a>" ∧
      language (' ' :: dataLanguage ++ ['\n']) = "a>" := by
  have hnames : NamesLanguage dataLanguage ['a', '>'] :=
    .intro (by decide) (by decide) (by decide) (startsTrimmed_cons.2 (by decide))
      (.quoted .single (by decide) (by decide))
  obtain ⟨-, -, htoken, -, -, hblanks⟩ := language_grammar dataLanguage
  exact ⟨hnames, htoken _ hnames, (hblanks [' '] ['\n'] (by decide) (by decide)).trans
    (htoken _ hnames)⟩

end ScriptBlocks.Tag
