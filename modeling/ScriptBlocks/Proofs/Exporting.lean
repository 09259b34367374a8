import ScriptBlocks.Settings
import ScriptBlocks.Proofs.Text.LowerCase
import ScriptBlocks.Proofs.Text.Numeral
import ScriptBlocks.Proofs.Text.Search

/-!
# Settings that are read and written

Whatever an environment holds, the settings read from it are in normal form (`Settings.IsNormal`):
no blanks around texts, numbers in their bounds, suffixes in lower case with a dot in front.
Settings in normal form are read back from an environment that they are written to
(`Settings.IsNormal.ofEnvironment_eq`).  So to read settings, to write them and to read them
again gives the same settings (`Settings.ofEnvironment_exportTo`).
-/

namespace ScriptBlocks.Settings

open Text

/-- The environment with the settings written to it. -/
def exportTo (s : Settings) (env : Environment) : Environment :=
  ((((env.set "MPXSCAN_HOST" s.host).set "MPXSCAN_PORT" s.port.repr).set
    "MPXSCAN_MAX_DOCUMENT_BYTES" s.maxDocumentBytes.repr).set
      "MPXSCAN_LOG_LEVEL" s.logLevel.name).set
        "MPXSCAN_EXTENSIONS" (",".intercalate s.extensions)

/-- A suffix in normal form. -/
structure IsExtension (e : String) : Prop where
  dot : e.toList.head? = some '.'
  comma_notMem : ',' ∉ e.toList
  trimmed : IsTrimmed e.toList
  lower : lowerCase e.toList = e.toList

/-- The number can be read: it has no more digits than are read. -/
def IsReadable (n : Int) : Prop := n.natAbs < 10 ^ Numeral.maxDigits

/-- Settings in normal form. -/
structure IsNormal (s : Settings) : Prop where
  host_ne_empty : s.host ≠ ""
  host_trimmed : IsTrimmed s.host.toList
  port_readable : IsReadable s.port
  le_maxDocumentBytes : 1024 ≤ s.maxDocumentBytes
  maxDocumentBytes_readable : IsReadable s.maxDocumentBytes
  logLevel_mem : s.logLevel.name ∈ ["DEBUG", "INFO", "WARNING", "ERROR", "CRITICAL"]
  extensions_ne_nil : s.extensions ≠ []
  isExtension : ∀ e ∈ s.extensions, IsExtension e

variable {env env' : Environment} {s : Settings} {item : List Char} {e default setting : String}
  {n : Int}

/-! ### Hosts -/

theorem hostOf_ne_empty (h : default ≠ "") (setting : String) : hostOf default setting ≠ "" := by
  rw [hostOf]
  split
  · exact h
  · assumption

theorem host_ofEnvironment (env : Environment) :
    (ofEnvironment env).host = hostOf "127.0.0.1" (env.getD "MPXSCAN_HOST" "127.0.0.1") := by
  simp only [ofEnvironment]

theorem isTrimmed_hostOf (h : IsTrimmed default.toList) (setting : String) :
    IsTrimmed (hostOf default setting).toList := by
  rw [hostOf]
  split
  · exact h
  · rw [trimmed, String.toList_ofList]
    exact isTrimmed_trim _

theorem hostOf_eq_self (hne : setting ≠ "") (h : IsTrimmed setting.toList) :
    hostOf default setting = setting := by
  have htrim : trimmed setting = setting := by rw [trimmed, h.trim_eq, String.ofList_toList]
  rw [hostOf, htrim, if_neg hne]

/-! ### Numbers -/

theorem isReadable_integer (h : IsReadable n) (env : Environment) (name : String) :
    IsReadable (integer env name n) := by
  rw [integer]
  rcases hread : (env.get? name).bind Numeral.readInt? with _ | m
  · exact h
  · obtain ⟨setting, -, hm⟩ := Option.bind_eq_some_iff.1 hread
    exact Numeral.natAbs_lt_of_readInt? hm

theorem integer_of_get? {m : Int} {name : String} (hn : IsReadable n)
    (h : env.get? name = some n.repr) : integer env name m = n := by
  rw [integer, h, Option.bind_some, Numeral.readInt?_repr hn, Option.getD_some]

theorem isReadable_of_lt (h : n.natAbs < 10 ^ 8) : IsReadable n :=
  h.trans_le (Nat.pow_le_pow_right (by decide) (by decide))

theorem IsReadable.max (h : IsReadable n) : IsReadable (max leastMaxDocumentBytes n) := by
  rw [Int.max_def]
  split
  · exact h
  · exact isReadable_of_lt (by decide)

/-! ### Levels -/

theorem ofName?_trim_name (level : Level) :
    Level.ofName? (trim level.name.toList) = some level := by
  cases level <;> decide

/-! ### Suffixes -/

/-- What an item of a list of suffixes gives is in normal form. -/
theorem isExtension_of_extension? (hcomma : ',' ∉ item) (h : extension? item = some e) :
    IsExtension e := by
  have htrimmed : IsTrimmed (lowerCase (trim item)) := (isTrimmed_trim item).lowerCase
  have hsmall : ∀ c ∈ lowerCase (trim item), IsSmall c := fun c hc => isSmall_of_mem_lowerCase hc
  have hlower : ',' ∉ lowerCase (trim item) := fun hmem =>
    hcomma (trim_subset item (mem_of_mem_lowerCase smallRanges_apart (by decide) hmem))
  unfold extension? at h
  generalize lowerCase (trim item) = lower at htrimmed hsmall hlower h
  cases lower with
  | nil => cases h
  | cons c s =>
    obtain rfl := Option.some.inj h
    by_cases hc : c = '.'
    · subst hc
      constructor <;> rw [if_pos rfl, String.toList_ofList]
      · rfl
      · exact hlower
      · exact htrimmed
      · exact lowerCase_eq_self hsmall
    · constructor <;> rw [if_neg hc, String.toList_ofList]
      · rfl
      · exact List.not_mem_cons_of_ne_of_not_mem (by decide) hlower
      · refine ⟨startsTrimmed_cons.2 (by decide), fun d hd => htrimmed.stop d ?_⟩
        rwa [List.getLast?_cons_cons] at hd
      · exact lowerCase_eq_self (List.forall_mem_cons.2 ⟨isSmall_of_mem_named (by decide), hsmall⟩)

theorem IsExtension.extension?_eq (h : IsExtension e) : extension? e.toList = some e := by
  obtain ⟨rest, hrest⟩ := List.head?_eq_some_iff.1 h.dot
  have hlower : lowerCase (trim e.toList) = '.' :: rest := by
    rw [h.trimmed.trim_eq, h.lower, hrest]
  unfold extension?
  rw [hlower]
  simp only [if_pos]
  rw [← hrest, String.ofList_toList]

theorem isExtension_of_mem_extensionsOf (h : e ∈ extensionsOf setting) : IsExtension e := by
  obtain ⟨item, hitem, he⟩ := List.mem_filterMap.1 h
  exact isExtension_of_extension? (notMem_of_mem_splitOn hitem).1 he

/-- Suffixes in normal form are read back from the list of them. -/
theorem extensionsOf_intercalate {l : List String} (hne : l ≠ []) (h : ∀ e ∈ l, IsExtension e) :
    extensionsOf (",".intercalate l) = l := by
  have hcomma : ∀ part ∈ l.map String.toList, ',' ∉ part := by
    intro part hpart
    obtain ⟨e, he, rfl⟩ := List.mem_map.1 hpart
    exact (h e he).comma_notMem
  have hsplit : (",".intercalate l).toList.splitOn ',' = l.map String.toList := by
    rw [String.toList_intercalate]
    exact List.splitOn_intercalate ',' hcomma (by simpa using hne)
  have hread : ∀ e ∈ l, (extension? ∘ String.toList) e = some e :=
    fun e he => (h e he).extension?_eq
  rw [extensionsOf, hsplit, List.filterMap_map, List.filterMap_congr hread, List.filterMap_some]

/-! ### Settings -/

theorem isExtension_mpx : IsExtension ".mpx" := by
  constructor <;> decide

/-- The suffixes that are read: the default, or those of a list that has some. -/
theorem extensions_eq_default_or (env : Environment) :
    (ofEnvironment env).extensions = [".mpx"] ∨
      ∃ setting, (ofEnvironment env).extensions = extensionsOf setting ∧
        extensionsOf setting ≠ [] := by
  rcases hget : env.get? "MPXSCAN_EXTENSIONS" with _ | setting
  · exact .inl (by simp [ofEnvironment, hget])
  · rcases hl : extensionsOf setting with _ | ⟨e, l⟩
    · exact .inl (by simp [ofEnvironment, hget, hl])
    · exact .inr ⟨setting, by simp [ofEnvironment, hget, hl], by simp [hl]⟩

/-- Settings that are read are in normal form. -/
theorem isNormal_ofEnvironment (env : Environment) : (ofEnvironment env).IsNormal where
  host_ne_empty := by
    rw [host_ofEnvironment]
    exact hostOf_ne_empty (by decide) _
  host_trimmed := by
    rw [host_ofEnvironment]
    exact isTrimmed_hostOf (by decide) _
  port_readable := isReadable_integer (isReadable_of_lt (by decide)) env _
  le_maxDocumentBytes := Int.le_max_left _ _
  maxDocumentBytes_readable := (isReadable_integer (isReadable_of_lt (by decide)) env _).max
  logLevel_mem := by
    generalize (ofEnvironment env).logLevel = level
    cases level <;> decide
  extensions_ne_nil := by
    obtain h | ⟨setting, h, hne⟩ := extensions_eq_default_or env
    · rw [h]
      exact List.cons_ne_nil _ _
    · rwa [h]
  isExtension := by
    obtain h | ⟨setting, h, -⟩ := extensions_eq_default_or env
    · rw [h]
      exact List.forall_mem_singleton.2 isExtension_mpx
    · rw [h]
      exact fun e he => isExtension_of_mem_extensionsOf he

section

/-! What the settings are written to is read name by name. -/

variable (s : Settings) (env : Environment)

@[simp] theorem get?_exportTo_host : (s.exportTo env).get? "MPXSCAN_HOST" = some s.host := by
  simp [exportTo]

@[simp] theorem get?_exportTo_port : (s.exportTo env).get? "MPXSCAN_PORT" = some s.port.repr := by
  simp [exportTo]

@[simp] theorem get?_exportTo_maxDocumentBytes :
    (s.exportTo env).get? "MPXSCAN_MAX_DOCUMENT_BYTES" = some s.maxDocumentBytes.repr := by
  simp [exportTo]

@[simp] theorem get?_exportTo_logLevel :
    (s.exportTo env).get? "MPXSCAN_LOG_LEVEL" = some s.logLevel.name := by
  simp [exportTo]

@[simp] theorem get?_exportTo_extensions :
    (s.exportTo env).get? "MPXSCAN_EXTENSIONS" = some (",".intercalate s.extensions) := by
  simp [exportTo]

end

/-- Settings in normal form are read back from an environment that they are written to. -/
theorem IsNormal.ofEnvironment_eq (h : s.IsNormal) (env : Environment) :
    ofEnvironment (s.exportTo env) = s := by
  have hhost : hostOf "127.0.0.1" s.host = s.host := hostOf_eq_self h.host_ne_empty h.host_trimmed
  have hport (m : Int) : integer (s.exportTo env) "MPXSCAN_PORT" m = s.port :=
    integer_of_get? h.port_readable (get?_exportTo_port s env)
  have hbytes (m : Int) :
      integer (s.exportTo env) "MPXSCAN_MAX_DOCUMENT_BYTES" m = s.maxDocumentBytes :=
    integer_of_get? h.maxDocumentBytes_readable (get?_exportTo_maxDocumentBytes s env)
  have hmax : max leastMaxDocumentBytes s.maxDocumentBytes = s.maxDocumentBytes :=
    Int.max_eq_right h.le_maxDocumentBytes
  have hextensions : extensionsOf (",".intercalate s.extensions) = s.extensions :=
    extensionsOf_intercalate h.extensions_ne_nil h.isExtension
  have hempty : s.extensions.isEmpty = false := List.isEmpty_eq_false_iff.2 h.extensions_ne_nil
  simp [ofEnvironment, Environment.getD, hhost, hport, hbytes, hmax, ofName?_trim_name,
    hextensions, hempty]

/-- Settings that are read are in normal form, and they are read back from every environment that
they are written to. -/
theorem ofEnvironment_exportTo (env env' : Environment) :
    (ofEnvironment env).IsNormal ∧
      ofEnvironment ((ofEnvironment env).exportTo env') = ofEnvironment env :=
  ⟨isNormal_ofEnvironment env, (isNormal_ofEnvironment env).ofEnvironment_eq env'⟩

end ScriptBlocks.Settings
