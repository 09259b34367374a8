import ScriptBlocks.Proofs.ClosingAngle
import ScriptBlocks.Proofs.Fate
import ScriptBlocks.Proofs.Text.Utf8

/-!
# Where scripts lie

A scan counts bytes only when it gives out a script.  What it has counted is right at any time
(`Scan.Counted`): each pass keeps it so, and the byte at which a script starts is therefore the
size of the text before it, in an ASCII text and in any other (`Scan.byteAt_fst`).  What else a
pass shows depends on its tag alone, so that a scan is told by the tags that it visits
(`Scan.map_passes`, `Scan.scripts_passes`).
-/

namespace ScriptBlocks

open Text

namespace Scan

/-- The bytes counted are those before the index up to which they have been counted, which is not
past the cursor. -/
structure Counted (text : List Char) (p : Position) : Prop where
  /-- The number of bytes is that of the text before the index. -/
  seenBytes_eq : p.seenBytes = Utf8.size (text.take p.seenChars)
  /-- The index is not past the cursor. -/
  seenChars_le : p.seenChars ≤ p.cursor

theorem counted_start (text : List Char) : Counted text {} :=
  ⟨rfl, Nat.le_refl 0⟩

section

variable {text : List Char} {resolve : Resolver} {p next : Position} {tag i c : Nat}

theorem Counted.of_cursor_le (hp : Counted text p) (hc : p.cursor ≤ c) :
    Counted text { p with cursor := c } :=
  ⟨hp.seenBytes_eq, Nat.le_trans hp.seenChars_le hc⟩

theorem byteAt_fst (hp : Counted text p) (hi : p.cursor ≤ i) (hle : i ≤ text.length) :
    (byteAt text p i).1 = Utf8.size (text.take i) := by
  unfold byteAt
  split
  · next hascii =>
    rw [Utf8.size_of_forall_lt, List.length_take, Nat.min_eq_left hle]
    intro d hd
    exact of_decide_eq_true (List.all_eq_true.1 hascii d (List.mem_of_mem_take hd))
  · show p.seenBytes + Utf8.size (slice text p.seenChars i) = Utf8.size (text.take i)
    rw [hp.seenBytes_eq, Utf8.size_take_add_size_slice (Nat.le_trans hp.seenChars_le hi)]

theorem Counted.byteAt_snd (hp : Counted text p) (hi : p.cursor ≤ i) (hic : i ≤ c) :
    Counted text { (byteAt text p i).2 with cursor := c } := by
  have hle : p.seenChars ≤ i := Nat.le_trans hp.seenChars_le hi
  unfold byteAt
  split
  · exact ⟨hp.seenBytes_eq, Nat.le_trans hle hic⟩
  · refine ⟨?_, hic⟩
    show p.seenBytes + Utf8.size (slice text p.seenChars i) = Utf8.size (text.take i)
    rw [hp.seenBytes_eq, Utf8.size_take_add_size_slice hle]

theorem Counted.of_pass (hp : Counted text p) (ht : p.cursor ≤ tag)
    (hn : ((fate text resolve tag).pass text p tag).outcome.next? = some next) :
    Counted text next := by
  have hf := hasFate_fate text resolve tag
  generalize fate text resolve tag = f at hf hn
  cases hf with
  | lookAlike =>
    cases hn
    exact hp.of_cursor_le (Nat.le_add_right_of_le ht)
  | unterminated => cases hn
  | dropped _ hangle =>
    cases hn
    have := (Tag.bounds_of_closingAngle? hangle).1
    exact hp.of_cursor_le (by omega)
  | unclosed => cases hn
  | block _ hangle _ hstop =>
    cases hn
    have := (Tag.bounds_of_closingAngle? hangle).1
    have := le_of_find?_eq_some hstop
    exact hp.byteAt_snd (by omega) (by omega)

/-! ### A scan is told by its visits -/

/-- The script that a tag with this fate gives, if any. -/
def Fate.script? (text : List Char) : Fate → Option Script
  | block token found angle stop =>
    some ⟨String.ofList (slice text (angle + 1) stop), typeFor token found,
      Utf8.size (text.take (angle + 1)), true⟩
  | _ => none

/-- The type found is kept for a token with an `x`, and else put in the standard variant. -/
theorem typeFor_eq (token : String) (found : SourceType) : typeFor token found =
    if 'x' ∈ token.toList then found else { found with variant := .standard } := by
  unfold typeFor SourceType.withStandard
  by_cases h : 'x' ∈ token.toList <;> simp [h]

/-- The script that the tag at index `tag` gives when it is visited, if any. -/
def scriptAt (text : List Char) (resolve : Resolver) (tag : Nat) : Option Script :=
  (fate text resolve tag).script? text

theorem tag_pass (f : Fate) : (f.pass text p tag).tag = tag := by
  cases f <;> rfl

theorem asked_pass (f : Fate) : (f.pass text p tag).asked = f.asked := by
  cases f <;> rfl

/-- What is logged at a tag with this fate, if anything. -/
def Fate.message? (tag : Nat) (f : Fate) : Option String := (f.pass [] {} tag).message?

theorem message?_pass (f : Fate) : (f.pass text p tag).message? = f.message? tag := by
  cases f <;> rfl

theorem script?_pass (hp : Counted text p) (ht : p.cursor ≤ tag) :
    ((fate text resolve tag).pass text p tag).outcome.script? = scriptAt text resolve tag := by
  have hf := hasFate_fate text resolve tag
  unfold scriptAt
  generalize fate text resolve tag = f at hf
  cases hf with
  | lookAlike => rfl
  | unterminated => rfl
  | dropped => rfl
  | unclosed => rfl
  | block _ hangle =>
    have hb := Tag.bounds_of_closingAngle? hangle
    simp only [Fate.pass, Fate.script?, Outcome.script?]
    rw [byteAt_fst hp (by omega) (by omega)]

/-- Only a tag that begins a block gives a script. -/
theorem exists_fate_of_scriptAt_eq_some {s : Script} (h : scriptAt text resolve tag = some s) :
    ∃ token found angle stop, fate text resolve tag = .block token found angle stop ∧
      s = ⟨String.ofList (slice text (angle + 1) stop), typeFor token found,
        Utf8.size (text.take (angle + 1)), true⟩ := by
  unfold scriptAt at h
  rcases hfate : fate text resolve tag with _ | _ | _ | _ | ⟨token, found, angle, stop⟩ <;>
    rw [hfate] at h <;> cases h
  exact ⟨token, found, angle, stop, rfl, rfl⟩

theorem scriptAt_of_stop (h : after? text resolve tag = none) :
    scriptAt text resolve tag = none := by
  rcases hs : scriptAt text resolve tag with _ | s
  · rfl
  · obtain ⟨token, found, angle, stop, hfate, -⟩ := exists_fate_of_scriptAt_eq_some hs
    rw [after?, hfate] at h
    cases h

/-- What can be read off a pass without regard to what has been counted is read off its tag. -/
theorem map_passes {β : Type} {f : Pass → β} {g : Nat → β}
    (hfg : ∀ p tag, Counted text p → p.cursor ≤ tag →
      f ((fate text resolve tag).pass text p tag) = g tag) (hp : Counted text p) :
    (passes text resolve p).map f = (visits text resolve p.cursor).map g := by
  fun_induction passes text resolve p with
  | case1 p hstep =>
    rw [step_eq, Option.map_eq_none_iff] at hstep
    rw [visits_of_none hstep]
    rfl
  | case2 p pass hstep hnext =>
    rw [step_eq] at hstep
    obtain ⟨tag, ht, rfl⟩ := Option.map_eq_some_iff.1 hstep
    have hn : after? text resolve tag = none := by
      rw [after?, ← next?_pass _ text p, hnext]
      rfl
    rw [visits_of_some ht, hn]
    show [f _] = [g tag]
    rw [hfg p tag hp (Tag.bounds_of_startFrom? ht).1]
  | case3 p pass hstep next hnext ih =>
    rw [step_eq] at hstep
    obtain ⟨tag, ht, rfl⟩ := Option.map_eq_some_iff.1 hstep
    have hle := (Tag.bounds_of_startFrom? ht).1
    have hn : after? text resolve tag = some next.cursor := by
      rw [after?, ← next?_pass _ text p, hnext]
      rfl
    rw [visits_of_some ht, hn, List.map_cons, hfg p tag hp hle, ih (hp.of_pass hle hnext)]
    rfl

/-- The same for what passes show only at times. -/
theorem filterMap_passes {β : Type} {f : Pass → Option β} {g : Nat → Option β}
    (hfg : ∀ p tag, Counted text p → p.cursor ≤ tag →
      f ((fate text resolve tag).pass text p tag) = g tag) (hp : Counted text p) :
    (passes text resolve p).filterMap f = (visits text resolve p.cursor).filterMap g := by
  have h := congrArg (List.filterMap id) (map_passes hfg hp)
  rwa [List.filterMap_map, List.filterMap_map] at h

end

theorem scripts_passes (text : List Char) (resolve : Resolver) :
    scripts (passes text resolve {}) =
      (visits text resolve 0).filterMap (scriptAt text resolve) :=
  filterMap_passes (fun _ _ => script?_pass) (counted_start text)

theorem asked_passes (text : List Char) (resolve : Resolver) :
    asked (passes text resolve {}) =
      (visits text resolve 0).filterMap fun tag => (fate text resolve tag).asked :=
  filterMap_passes (fun _ _ _ _ => asked_pass _) (counted_start text)

theorem messages_passes (text : List Char) (resolve : Resolver) :
    messages (passes text resolve {}) =
      (visits text resolve 0).filterMap fun tag => (fate text resolve tag).message? tag :=
  filterMap_passes (fun _ _ _ _ => message?_pass _) (counted_start text)

end Scan

theorem parse_eq (text : String) (resolve : Resolver) :
    parse text resolve =
      (Scan.visits text.toList resolve 0).filterMap (Scan.scriptAt text.toList resolve) :=
  Scan.scripts_passes text.toList resolve

/-! ### The range of a script -/

/-- The script is the part of the text from index `i` on, and its range is the range of the bytes
of that part. -/
structure Script.CutAt (s : Script) (text : List Char) (i : Nat) : Prop where
  /-- The text of the script stands in the document at the index. -/
  slice_eq : slice text i (i + s.sourceText.toList.length) = s.sourceText.toList
  /-- The script starts after the bytes of what precedes it. -/
  start_eq : s.start = Utf8.size (text.take i)
  /-- The script stops after the bytes of what precedes its end. -/
  stop_eq : s.stop = Utf8.size (text.take (i + s.sourceText.toList.length))
  /-- The bytes of the script are those of its range. -/
  bytes_eq : (Utf8.encode text).extract s.start.toNat s.stop.toNat = Utf8.encode s.sourceText.toList

theorem Script.cutAt_of_slice {text : List Char} {i j : Nat} (hij : i ≤ j) (hj : j ≤ text.length)
    (type : SourceType) :
    (⟨String.ofList (slice text i j), type, Utf8.size (text.take i), true⟩ : Script).CutAt
      text i := by
  have hlen : i + (slice text i j).length = j := by
    rw [length_slice hj]
    omega
  have hstop : ((Utf8.size (text.take i) : Nat) : Int) + Utf8.size (slice text i j) =
      (Utf8.size (text.take j) : Nat) := by
    rw [← Int.natCast_add, Utf8.size_take_add_size_slice hij]
  constructor <;> simp only [Script.stop, String.toList_ofList, hlen, hstop]
  exact Utf8.encode_slice hij

/-- Every script of a text stands just after the closing angle of a tag, and its range of bytes is
exact. -/
theorem exists_cutAt_of_mem_parse {text : String} {resolve : Resolver} {s : Script}
    (hs : s ∈ parse text resolve) :
    ∃ tag angle, Tag.StartsAt text.toList tag ∧
      Tag.closingAngle? text.toList (tag + Tag.opening.length) = some angle ∧
      text.toList[angle]? = some '>' ∧ s.CutAt text.toList (angle + 1) := by
  rw [parse_eq] at hs
  obtain ⟨tag, htag, hs⟩ := List.mem_filterMap.1 hs
  obtain ⟨token, found, angle, stop, hfate, rfl⟩ := Scan.exists_fate_of_scriptAt_eq_some hs
  cases Scan.fate_eq_iff.1 hfate with
  | block _ hangle _ hstop =>
    have := add_length_le_of_find?_eq_some (by decide) hstop
    exact ⟨tag, _, Scan.startsAt_of_mem_visits htag, hangle, Tag.getElem?_closingAngle? hangle,
      Script.cutAt_of_slice (le_of_find?_eq_some hstop) (by omega) _⟩

/-- A document with characters of one to four bytes in a comment, a block of an unknown language, a
look-alike and a script. -/
def mixedWidths : String :=
  "<!-- é <script> --><script lang='€'>𝄞</script><script-é><script lang=ts>ñ</script>"

theorem exists_cutAt_mixedWidths :
    ⟨"ñ", SourceType.ts, 79, true⟩ ∈ parse mixedWidths ∧
      ∃ tag angle, Tag.StartsAt mixedWidths.toList tag ∧
        Tag.closingAngle? mixedWidths.toList (tag + Tag.opening.length) = some angle ∧
        mixedWidths.toList[angle]? = some '>' ∧
        Script.CutAt ⟨"ñ", SourceType.ts, 79, true⟩ mixedWidths.toList (angle + 1) :=
  have h : ⟨"ñ", SourceType.ts, 79, true⟩ ∈ parse mixedWidths := by with_unfolding_all decide
  ⟨h, exists_cutAt_of_mem_parse h⟩

end ScriptBlocks
