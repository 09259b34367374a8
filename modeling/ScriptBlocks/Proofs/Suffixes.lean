import ScriptBlocks.Settings
import ScriptBlocks.Proofs.Text.LowerCase
import ScriptBlocks.Proofs.Walk

/-!
# Suffixes that are set and suffixes that are picked up

A setting can give any text as a suffix, while a walk looks at what a file name has from its last
dot on.  So a file whose name ends in a suffix of the setting is picked up if, and only if, the part
of that suffix from its last dot on is a suffix of the setting itself and not only a dot
(`Walk.mem_ofArguments_iff_of_configured`).  A suffix with its only dot in front always is.
-/

namespace ScriptBlocks

/-! ### The last dot of a name -/

namespace Path

variable {name before after : List Char}

/-- Splitting at the last dot: the part after it is the one without a dot. -/
theorem splitLastDot?_append (h : '.' ∉ after) :
    splitLastDot? (before ++ '.' :: after) = some (before, after) := by
  have hafter : '.' ∉ after.reverse := by rwa [List.mem_reverse]
  have hreverse : (before ++ '.' :: after).reverse = after.reverse ++ '.' :: before.reverse := by
    simp
  rw [splitLastDot?, hreverse, Text.span_bne_append hafter]
  simp

theorem exists_lastDot (h : '.' ∈ name) :
    ∃ before after, name = before ++ '.' :: after ∧ '.' ∉ after := by
  obtain ⟨after, before, heq, hafter⟩ := List.eq_append_cons_of_mem (List.mem_reverse.2 h)
  refine ⟨before.reverse, after.reverse, ?_, by simpa using hafter⟩
  rw [← List.reverse_reverse name, heq]
  simp

theorem suffixOf_append (hbefore : before ≠ []) (h : '.' ∉ after) :
    suffixOf (before ++ '.' :: after) = if after = [] then [] else '.' :: after := by
  rw [suffixOf, splitLastDot?_append h]
  simp [hbefore]

end Path

/-! ### Suffixes of a setting -/

namespace Settings

variable {item : List Char} {setting : String} {env : Environment}

/-- An item that is more than blanks and a dot gives a suffix: a dot and more, in lower case. -/
theorem exists_extension? (hblank : Text.trim item ≠ []) (hdot : Text.trim item ≠ ['.']) :
    ∃ rest, rest ≠ [] ∧ extension? item = some (String.ofList ('.' :: rest)) ∧
      ∀ c ∈ rest, Text.IsSmall c := by
  have hsmall : ∀ c ∈ Text.lowerCase (Text.trim item), Text.IsSmall c :=
    fun c hc => Text.isSmall_of_mem_lowerCase hc
  have hne : Text.lowerCase (Text.trim item) ≠ [] := Text.lowerCase_eq_nil_iff.not.2 hblank
  have hlone : Text.lowerCase (Text.trim item) ≠ ['.'] := Text.lowerCase_eq_dot_iff.not.2 hdot
  unfold extension?
  generalize Text.lowerCase (Text.trim item) = lower at hsmall hne hlone
  cases lower with
  | nil => exact absurd rfl hne
  | cons c s =>
    by_cases hc : c = '.'
    · subst hc
      refine ⟨s, ?_, by simp, fun d hd => hsmall d (List.mem_cons_of_mem _ hd)⟩
      rintro rfl
      exact hlone rfl
    · exact ⟨c :: s, by simp, by simp [hc], hsmall⟩

theorem notMem_extensionsOf : "" ∉ extensionsOf setting := by
  intro h
  obtain ⟨item, -, hitem⟩ := List.mem_filterMap.1 h
  unfold extension? at hitem
  split at hitem
  · cases hitem
  · have hnil := String.ofList_eq_empty_iff.1 (Option.some.inj hitem)
    split at hnil <;> cases hnil

theorem extensions_ofEnvironment (h : env.get? "MPXSCAN_EXTENSIONS" = some setting)
    (hne : extensionsOf setting ≠ []) :
    (ofEnvironment env).extensions = extensionsOf setting := by
  simp [ofEnvironment, h, hne]

end Settings

/-! ### What is picked up -/

namespace Walk

variable {fs : FileSystem} {extensions : List String} {entries : List (String × Node)} {p q : Path}
  {before after stem : List Char}

theorem mem_ofPath_directory_iff (hfind : fs.find p = .ok (.directory entries))
    (h : fs.canExamine p = true) :
    q ∈ (ofPath fs extensions p).paths ↔ q ∈ filesOf p entries ∧ picksUp extensions q = true := by
  rw [ofPath_eq h, filesFor, hfind]
  exact List.mem_filter

/-- Of a name that ends in small characters, what follows the last dot is compared as it is. -/
theorem picksUp_iff (hempty : "" ∉ extensions) (hname : q.name.toList = before ++ '.' :: after)
    (hbefore : before ≠ []) (hafter : '.' ∉ after) (hsmall : ∀ c ∈ after, Text.IsSmall c) :
    picksUp extensions q = true ↔ after ≠ [] ∧ String.ofList ('.' :: after) ∈ extensions := by
  rw [picksUp, List.contains_iff_mem, Path.suffix, hname, Path.suffixOf_append hbefore hafter]
  by_cases hnil : after = []
  · simpa [hnil, Text.lowerCase, Text.lowerCaseAfter] using hempty
  · have hdot : Text.IsSmall '.' := by decide
    rw [if_neg hnil, Text.lowerCase_eq_self]
    · simp [hnil]
    · simpa using ⟨hdot, hsmall⟩

/-- A file below a directory whose name is a stem and a suffix of the setting is picked up if, and
only if, the part of that suffix from its last dot on is more than a dot and a suffix of the setting
itself.  So it is if the suffix has its only dot in front. -/
theorem mem_ofArguments_iff_of_configured {env : Environment} {setting a : String}
    {item : List Char} (henv : env.get? "MPXSCAN_EXTENSIONS" = some setting)
    (hitem : item ∈ setting.toList.splitOn ',') (hblank : Text.trim item ≠ [])
    (hdot : Text.trim item ≠ ['.'])
    (hfind : fs.find (Path.ofString a) = .ok (.directory entries))
    (h : fs.canExamine (Path.ofString a) = true) :
    ∃ e before after, Settings.extension? item = some e ∧
      e.toList = before ++ '.' :: after ∧ '.' ∉ after ∧
      ∀ q ∈ filesOf (Path.ofString a) entries, ∀ stem, stem ≠ [] →
        q.name.toList = stem ++ e.toList →
        (q ∈ (ofArguments fs (Settings.ofEnvironment env).extensions [a]).paths ↔
          after ≠ [] ∧
            String.ofList ('.' :: after) ∈ (Settings.ofEnvironment env).extensions) ∧
        (before = [] →
          q ∈ (ofArguments fs (Settings.ofEnvironment env).extensions [a]).paths) := by
  obtain ⟨rest, hrest, he, hsmall⟩ := Settings.exists_extension? hblank hdot
  have hmem : String.ofList ('.' :: rest) ∈ Settings.extensionsOf setting :=
    List.mem_filterMap.2 ⟨item, hitem, he⟩
  rw [Settings.extensions_ofEnvironment henv (List.ne_nil_of_mem hmem)]
  obtain ⟨before, after, heq, hafter⟩ :=
    Path.exists_lastDot (List.mem_cons_self : '.' ∈ '.' :: rest)
  have hsub : ∀ c ∈ after, Text.IsSmall c := by
    intro c hc
    have hcons : c ∈ '.' :: rest := by simp [heq, hc]
    rcases List.mem_cons.1 hcons with rfl | hc'
    · exact absurd hc hafter
    · exact hsmall c hc'
  refine ⟨_, before, after, he, String.toList_ofList.trans heq, hafter, ?_⟩
  intro q hq stem hstem hname
  rw [String.toList_ofList, heq, ← List.append_assoc] at hname
  have hiff : q ∈ (ofArguments fs (Settings.extensionsOf setting) [a]).paths ↔
      after ≠ [] ∧ String.ofList ('.' :: after) ∈ Settings.extensionsOf setting := by
    rw [ofArguments_singleton, mem_ofPath_directory_iff hfind h,
      picksUp_iff Settings.notMem_extensionsOf hname (by simp [hstem]) hafter hsub]
    simp [hq]
  refine ⟨hiff, ?_⟩
  rintro rfl
  obtain rfl : rest = after := (List.cons_inj_right '.').1 heq
  exact hiff.2 ⟨hrest, hmem⟩

/-- The entries of a directory with two pages, one of them in a further directory. -/
def pageEntries : List (String × Node) :=
  [("a.page.mpx", .file []), ("sub", .directory [("b.x.vue", .file [])])]

def pages : FileSystem where
  here := .directory [("d", .directory pageEntries)]

def pageSetting : Environment := ⟨[("MPXSCAN_EXTENSIONS", " .page.MPX ,vue,.")]⟩

def pagePaths : List Path :=
  (ofArguments pages (Settings.ofEnvironment pageSetting).extensions ["d"]).paths

theorem mem_pagePaths :
    (⟨.relative, ["d", "sub", "b.x.vue"]⟩ : Path) ∈ pagePaths ∧
      (⟨.relative, ["d", "a.page.mpx"]⟩ : Path) ∉ pagePaths := by
  have hfind : pages.find (Path.ofString "d") = .ok (.directory pageEntries) := by rfl
  have hexamine : pages.canExamine (Path.ofString "d") = true := by decide
  have hsetting : pageSetting.get? "MPXSCAN_EXTENSIONS" = some " .page.MPX ,vue,." := by decide
  constructor
  · have hitem : "vue".toList ∈ " .page.MPX ,vue,.".toList.splitOn ',' := by decide
    have hextension : Settings.extension? "vue".toList = some ".vue" := by decide
    have hdots : Path.splitLastDot? ".vue".toList = some ([], "vue".toList) := by decide
    have hq : ⟨.relative, ["d", "sub", "b.x.vue"]⟩ ∈ filesOf (Path.ofString "d") pageEntries :=
      mem_filesOf_iff.2 ⟨["sub", "b.x.vue"], by decide, by decide⟩
    obtain ⟨e, before, after, he, heq, hafter, h⟩ := mem_ofArguments_iff_of_configured hsetting
      hitem (by decide) (by decide) hfind hexamine
    obtain rfl : ".vue" = e := Option.some.inj (hextension.symm.trans he)
    rw [heq, Path.splitLastDot?_append hafter, Option.some_inj, Prod.mk.injEq] at hdots
    exact (h _ hq "b.x".toList (by decide) (by decide)).2 hdots.1
  · have hitem : " .page.MPX ".toList ∈ " .page.MPX ,vue,.".toList.splitOn ',' := by
      decide
    have hextension : Settings.extension? " .page.MPX ".toList = some ".page.mpx" := by
      decide
    have hdots : Path.splitLastDot? ".page.mpx".toList = some (".page".toList, "mpx".toList) := by
      decide
    have hq : ⟨.relative, ["d", "a.page.mpx"]⟩ ∈ filesOf (Path.ofString "d") pageEntries :=
      mem_filesOf_iff.2 ⟨["a.page.mpx"], by decide, by decide⟩
    obtain ⟨e, before, after, he, heq, hafter, h⟩ := mem_ofArguments_iff_of_configured hsetting
      hitem (by decide) (by decide) hfind hexamine
    obtain rfl : ".page.mpx" = e := Option.some.inj (hextension.symm.trans he)
    rw [heq, Path.splitLastDot?_append hafter, Option.some_inj, Prod.mk.injEq] at hdots
    intro hmem
    have hmpx := ((h _ hq "a".toList (by decide) (by decide)).1.1 hmem).2
    rw [hdots.2] at hmpx
    exact absurd hmpx (by decide)

/-- A file whose name ends in a suffix of the setting need not be picked up: of a suffix with an
inner dot, the part before its last dot is not compared. -/
theorem not_mem_ofArguments_of_configured :
    ¬ ∀ (fs : FileSystem) (env : Environment) (setting a e : String) (item stem : List Char)
        (entries : List (String × Node)) (q : Path),
      env.get? "MPXSCAN_EXTENSIONS" = some setting → item ∈ setting.toList.splitOn ',' →
      Text.trim item ≠ [] → Text.trim item ≠ ['.'] → Settings.extension? item = some e →
      fs.find (Path.ofString a) = .ok (.directory entries) →
      q ∈ filesOf (Path.ofString a) entries → stem ≠ [] → q.name.toList = stem ++ e.toList →
      q ∈ (ofArguments fs (Settings.ofEnvironment env).extensions [a]).paths := by
  intro h
  have hfind : pages.find (Path.ofString "d") = .ok (.directory pageEntries) := by rfl
  have hmem := h pages pageSetting " .page.MPX ,vue,." "d" ".page.mpx" " .page.MPX ".toList
    "a".toList pageEntries ⟨.relative, ["d", "a.page.mpx"]⟩ (by decide) (by decide)
    (by decide) (by decide) (by decide) hfind
    (mem_filesOf_iff.2 ⟨["a.page.mpx"], by decide, by decide⟩) (by decide) (by decide)
  rw [ofArguments_singleton, mem_ofPath_directory_iff hfind (by decide)] at hmem
  exact absurd hmem.2 (by decide)

end Walk

end ScriptBlocks
