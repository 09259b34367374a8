import ScriptBlocks.Proofs.EnvFileFailure
import ScriptBlocks.Proofs.Text.Blank
import ScriptBlocks.Proofs.Text.Newlines

/-!
# Environment files as they are written

An environment file is written line by line (`EnvFile.Line`): settings, each with blanks around its
name and its value, and between them lines that say nothing.  Each part carries what it must not
hold to be told from its neighbours, and each line ends in one of three ways.  Whatever the ends,
the text that is read has the written lines (`EnvFile.assignments_written`), so that reading gives
the settings back (`EnvFile.assignments_render`).  Loading the file then gives each name the value
of its last setting, and leaves all other names as they are (`EnvFile.load_render`).
-/

namespace ScriptBlocks

open Text

namespace EnvFile

/-! ### Lines -/

/-- Spaces and tabs. -/
structure Margin where
  chars : List Char
  blank : chars ⊆ [' ', '\t'] := by decide

/-- A name with a value, as a line can hold them: neither has an end of a line in it or a blank at
its ends. -/
structure Setting where
  name : String
  value : String
  name_ne : name ≠ "" := by decide
  /-- The name ends before the first `=`. -/
  no_equals : '=' ∉ name.toList := by decide
  /-- The line is no comment. -/
  no_hash : name.toList.head? ≠ some '#' := by decide
  name_trimmed : IsTrimmed name.toList := by decide
  value_trimmed : IsTrimmed value.toList := by decide
  name_onOneLine : OnOneLine name.toList := by decide
  value_onOneLine : OnOneLine value.toList := by decide
  name_no_nul : '\x00' ∉ name.toList := by decide
  value_no_nul : '\x00' ∉ value.toList := by decide

/-- A line, without its end. -/
inductive Line where
  /-- A setting, with margins around its name and its value. -/
  | setting (setting : Setting) (beforeName afterName beforeValue afterValue : Margin)
  | blank (margin : Margin)
  /-- A line that begins with `#` after blanks. -/
  | comment (indent text : List Char) (blank : AllBlank indent)
      (onOneLine : OnOneLine (indent ++ '#' :: text))
  /-- A line without `=`. -/
  | plain (text : List Char) (no_equals : '=' ∉ text) (onOneLine : OnOneLine text)

/-- The line as it is written. -/
def Line.chars : Line → List Char
  | setting s beforeName afterName beforeValue afterValue =>
    beforeName.chars ++ s.name.toList ++ afterName.chars ++
      '=' :: (beforeValue.chars ++ s.value.toList ++ afterValue.chars)
  | blank margin => margin.chars
  | comment indent text _ _ => indent ++ '#' :: text
  | plain text _ _ => text

/-- What the line sets. -/
def Line.setting? : Line → Option (String × String)
  | setting s _ _ _ _ => some (s.name, s.value)
  | _ => none

/-- What ends a line. -/
inductive Ending where
  | lineFeed
  | carriageReturn
  /-- A carriage return with a line feed after it. -/
  | both
  deriving DecidableEq, Repr

def Ending.chars : Ending → List Char
  | lineFeed => ['\n']
  | carriageReturn => ['\r']
  | both => ['\r', '\n']

/-- Lines with their ends, as they are written one after the other. -/
def render (file : List (Line × Ending)) : List Char :=
  file.flatMap fun part => part.1.chars ++ part.2.chars

/-- The settings of lines, in their order. -/
def settings (file : List (Line × Ending)) : List (String × String) :=
  file.filterMap fun part => part.1.setting?

section

variable {s t line : List Char}

theorem Margin.forall_mem {P : Char → Prop} (margin : Margin) (hspace : P ' ') (htab : P '\t') :
    ∀ c ∈ margin.chars, P c := by
  intro c hc
  have := margin.blank hc
  simp only [List.mem_cons, List.not_mem_nil, or_false] at this
  rcases this with rfl | rfl
  · exact hspace
  · exact htab

theorem Margin.allBlank (margin : Margin) : AllBlank margin.chars :=
  margin.forall_mem (by decide) (by decide)

theorem Margin.onOneLine (margin : Margin) : OnOneLine margin.chars :=
  margin.forall_mem (by decide) (by decide)

theorem Margin.notMem {c : Char} (margin : Margin) (h : c ∉ [' ', '\t']) : c ∉ margin.chars :=
  fun hc => h (margin.blank hc)

theorem Line.onOneLine (line : Line) : OnOneLine line.chars := by
  cases line with
  | setting s beforeName afterName beforeValue afterValue =>
    have hequals : OnOneLine ['='] := by decide
    have hvalue := (beforeValue.onOneLine.append s.value_onOneLine).append afterValue.onOneLine
    have hname := (beforeName.onOneLine.append s.name_onOneLine).append afterName.onOneLine
    exact hname.append (hequals.append hvalue)
  | blank margin => exact margin.onOneLine
  | comment _ _ _ h => exact h
  | plain _ _ h => exact h

/-! ### Reading one line -/

theorem equals_mem_of_assigns {name value : String} (h : Assigns line name value) : '=' ∈ line := by
  obtain ⟨-, before, after, hline, -⟩ := h
  apply trim_subset line
  simp [hline]

theorem assignment?_of_notMem (h : '=' ∉ line) : assignment? line = none :=
  assignment?_eq_none_iff.2 fun _ _ hassigns => h (equals_mem_of_assigns hassigns)

/-- What is left of a setting without the blanks at its ends begins with its name. -/
theorem Setting.trim_chars (s : Setting) (beforeName afterName beforeValue afterValue : Margin) :
    trim (Line.setting s beforeName afterName beforeValue afterValue).chars =
      s.name.toList ++ afterName.chars ++
        '=' :: trimEnd (beforeValue.chars ++ s.value.toList ++ afterValue.chars) := by
  obtain ⟨c, rest, hname⟩ := List.exists_cons_of_ne_nil (mt String.toList_eq_nil_iff.1 s.name_ne)
  have hc : isBlank c = false := startsTrimmed_cons.1 (hname ▸ s.name_trimmed.start)
  rw [Line.chars, trim_append_cons (by decide), List.append_assoc,
    beforeName.allBlank.trimStart_append, hname, List.cons_append, trimStart_cons hc]

theorem Setting.assigns (s : Setting) (beforeName afterName beforeValue afterValue : Margin) :
    Assigns (Line.setting s beforeName afterName beforeValue afterValue).chars s.name s.value := by
  have htrim := s.trim_chars beforeName afterName beforeValue afterValue
  refine ⟨?_, _, _, htrim, ?_, ?_, ?_⟩
  · have hne : s.name.toList ≠ [] := mt String.toList_eq_nil_iff.1 s.name_ne
    rw [htrim, List.append_assoc, List.head?_append_of_ne_nil _ hne]
    exact s.no_hash
  · simpa using ⟨s.no_equals, afterName.notMem (by decide)⟩
  · rw [afterName.allBlank.trim_append, s.name_trimmed.trim_eq]
  · rw [trim_trimEnd, trim_append_append beforeValue.allBlank afterValue.allBlank,
      s.value_trimmed.trim_eq]

theorem Line.assignment?_chars (line : Line) : assignment? line.chars = line.setting? := by
  cases line with
  | setting s beforeName afterName beforeValue afterValue =>
    exact assignment?_eq_some_iff.2 (s.assigns beforeName afterName beforeValue afterValue)
  | blank margin => exact assignment?_of_notMem (margin.notMem (by decide))
  | comment indent text hblank =>
    apply assignment?_eq_none_iff.2
    rintro name value ⟨hhash, -⟩
    apply hhash
    rw [Line.chars, trim_append_cons (by decide), hblank.trimStart_eq]
    rfl
  | plain _ h => exact assignment?_of_notMem h

/-! ### Reading line by line -/

theorem assignments_append_lineFeed (h : OnOneLine s) (t : List Char) :
    assignments (s ++ '\n' :: t) = (assignment? s).toList ++ assignments t := by
  rw [assignments, lines_append_lineFeed h]
  cases hs : assignment? s <;> simp [assignments, hs]

theorem assignments_lineFeed (t : List Char) : assignments ('\n' :: t) = assignments t :=
  assignments_append_lineFeed (s := []) (by decide) t

/-- A line is read apart from what follows it, whatever its end.  A carriage return takes up a line
feed that ends an empty line after it, and such a line says nothing. -/
theorem assignments_written (h : OnOneLine s) (ending : Ending) (t : List Char) :
    assignments (unifyNewlines (s ++ (ending.chars ++ t))) =
      (assignment? s).toList ++ assignments (unifyNewlines t) := by
  rw [unifyNewlines_append (h.notMem rfl)]
  cases ending with
  | lineFeed =>
    rw [Ending.chars, List.singleton_append, unifyNewlines_cons (by simp)]
    exact assignments_append_lineFeed h _
  | carriageReturn =>
    rw [Ending.chars, List.singleton_append]
    by_cases ht : t.head? = some '\n'
    · obtain ⟨t, rfl⟩ := List.head?_eq_some_iff.1 ht
      rw [unifyNewlines_pair, unifyNewlines_cons (by simp), assignments_append_lineFeed h]
      exact congrArg (_ ++ ·) (assignments_lineFeed _).symm
    · rw [unifyNewlines_cons fun hpair => ht hpair.2]
      exact assignments_append_lineFeed h _
  | both =>
    rw [Ending.chars, List.cons_append, List.singleton_append, unifyNewlines_pair]
    exact assignments_append_lineFeed h _

/-- A file that is written line by line is read as its settings. -/
theorem assignments_render (file : List (Line × Ending)) :
    assignments (unifyNewlines (render file)) = settings file := by
  induction file with
  | nil => rfl
  | cons part file ih =>
    obtain ⟨line, ending⟩ := part
    have hrender : render ((line, ending) :: file) =
        line.chars ++ (ending.chars ++ render file) := by simp [render]
    rw [hrender, assignments_written line.onOneLine, ih, line.assignment?_chars]
    cases hline : line.setting? <;> simp [settings, hline]

/-! ### Loading -/

theorem assignmentError?_setting (s : Setting) : assignmentError? s.name s.value = none := by
  simp [assignmentError?, s.name_no_nul, s.value_no_nul, s.name_ne]

theorem assign_settings (env : Environment) (file : List (Line × Ending)) :
    assign env (settings file) = (env.override (settings file), none) := by
  have hnone : (assign env (settings file)).2 = none := by
    rw [assign_snd, List.findSome?_eq_none_iff]
    intro a ha
    obtain ⟨⟨line, ending⟩, -, hline⟩ := List.mem_filterMap.1 ha
    cases line with
    | setting s =>
      cases hline
      exact assignmentError?_setting s
    | blank | comment | plain => cases hline
  exact Prod.ext (assign_fst_eq hnone) hnone

end

variable {fs : FileSystem} {name : String} {file : List (Line × Ending)}

theorem load_eq_of_render (hname : name ≠ "")
    (h : fs.find (Path.ofString name) = .ok (.file (Utf8.encode (render file))))
    (env : Environment) :
    load fs env (some name) = { environment := env.override (settings file) } := by
  rw [load_eq_loadPath hname, loadPath_of_text h, loadText, assignments_render, assign_settings]
  rfl

/-- Loading a file that is written line by line gives each name the value of its last setting,
leaves all other names as they are, and does so without a word. -/
theorem load_render (hname : name ≠ "")
    (h : fs.find (Path.ofString name) = .ok (.file (Utf8.encode (render file))))
    (env : Environment) :
    (load fs env (some name)).error? = none ∧ (load fs env (some name)).log = [] ∧
      (∀ before x value after, settings file = before ++ (x, value) :: after →
        x ∉ Entries.names after →
          (load fs env (some name)).environment.get? x = some value) ∧
      ∀ x, x ∉ Entries.names (settings file) →
        (load fs env (some name)).environment.get? x = env.get? x := by
  rw [load_eq_of_render hname h]
  refine ⟨rfl, rfl, ?_, ?_⟩
  · intro before x value after hsettings hlast
    rw [hsettings]
    exact Environment.get?_override_of_last hlast
  · intro x hx
    exact Environment.get?_override_of_notMem hx

/-- A name that is set twice, with a comment and blank lines around and all three ends of lines. -/
def repeatedSetting : List (Line × Ending) :=
  [(.comment [' '] "A=0".toList (by decide) (by decide), .carriageReturn),
    (.blank { chars := [] }, .lineFeed),
    (.setting { name := "A", value := "" } { chars := ['\t'] } { chars := [' '] } { chars := [] }
      { chars := [] }, .both),
    (.plain "é #".toList (by decide) (by decide), .lineFeed),
    (.setting { name := "A", value := "b=#c" } { chars := [] } { chars := [] } { chars := [' '] }
      { chars := ['\t'] }, .carriageReturn)]

def repeatedSettingFiles : FileSystem where
  here := .directory [("e", .file (Utf8.encode (render repeatedSetting)))]

theorem load_render_repeatedSetting :
    "e" ≠ "" ∧ repeatedSettingFiles.find (Path.ofString "e") =
      .ok (.file (Utf8.encode (render repeatedSetting))) ∧
    render repeatedSetting = " #A=0\r\n\tA =\r\né #\nA= b=#c\t\r".toList ∧
    (load repeatedSettingFiles ⟨[("A", "0"), ("B", "1")]⟩ (some "e")).environment.get? "A" =
      some "b=#c" ∧
    (load repeatedSettingFiles ⟨[("A", "0"), ("B", "1")]⟩ (some "e")).environment.get? "B" =
      some "1" := by
  have hfind : repeatedSettingFiles.find (Path.ofString "e") =
      .ok (.file (Utf8.encode (render repeatedSetting))) := rfl
  have hname : "e" ≠ "" := by decide
  obtain ⟨-, -, hlast, hrest⟩ := load_render hname hfind ⟨[("A", "0"), ("B", "1")]⟩
  refine ⟨hname, hfind, by decide, ?_, ?_⟩
  · exact hlast [("A", "")] "A" "b=#c" [] rfl (by decide)
  · rw [hrest "B" (by decide)]
    decide

end EnvFile

end ScriptBlocks
