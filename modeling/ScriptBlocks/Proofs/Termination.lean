import Mathlib.Data.List.Chain
import ScriptBlocks.Proofs.Iteration
import ScriptBlocks.Proofs.Offsets

/-!
# How long a scan takes

Two loops go through a text.  That of a scan goes on from one position to the next
(`Scan.GoesOn`), and the search for a tag inside each pass is tried again from behind each comment
that hides what it found (`Tag.Retries`).  Both relations are well-founded, so that each loop runs
through finitely many states, whatever the text (`exists_runsThrough`).  What one step of a loop
passes over in the text bounds the number of its steps: the letters of `<script` for a pass
(`Scan.cursor_add_le`), one more character where the resolver is asked (`Scan.cursor_add_asked_le`),
and the `-->` of a comment for a retry (`Tag.length_le_occurrences`).
-/

namespace ScriptBlocks

open Text

/-! ### Loops -/

section

variable {α : Type} {goesOn : α → α → Prop} {s t : α} {later : List α}

/-- A loop that begins at `s` goes on through the states `later` and stops at the last of them. -/
structure RunsThrough (goesOn : α → α → Prop) (s : α) (later : List α) : Prop where
  chain : List.IsChain goesOn (s :: later)
  stops : ∀ t, ¬ goesOn (later.getLastD s) t

theorem runsThrough_nil : RunsThrough goesOn s [] ↔ ∀ t, ¬ goesOn s t :=
  ⟨fun h => h.stops, fun h => ⟨.singleton s, h⟩⟩

theorem runsThrough_cons :
    RunsThrough goesOn s (t :: later) ↔ goesOn s t ∧ RunsThrough goesOn t later := by
  constructor
  · intro h
    obtain ⟨hst, hchain⟩ := List.isChain_cons_cons.1 h.chain
    have hstops := h.stops
    rw [List.getLastD_cons] at hstops
    exact ⟨hst, hchain, hstops⟩
  · rintro ⟨hst, hrun⟩
    refine ⟨.cons_cons hst hrun.chain, ?_⟩
    rw [List.getLastD_cons]
    exact hrun.stops

/-- A loop that cannot go on for ever stops. -/
theorem exists_runsThrough (h : WellFounded fun t s => goesOn s t) (s : α) :
    ∃ later, RunsThrough goesOn s later := by
  induction s using h.induction with
  | _ s ih =>
    by_cases hs : ∃ t, goesOn s t
    · obtain ⟨t, hst⟩ := hs
      obtain ⟨later, hrun⟩ := ih t hst
      exact ⟨t :: later, runsThrough_cons.2 ⟨hst, hrun⟩⟩
    · exact ⟨[], runsThrough_nil.2 (not_exists.1 hs)⟩

end

/-! ### The passes of a scan -/

namespace Scan

/-- A pass that begins at `p` does not stop the scan and leaves it at `next`. -/
def GoesOn (text : List Char) (resolve : Resolver) (p next : Position) : Prop :=
  ∃ pass, step text resolve p = some pass ∧ pass.outcome.next? = some next

section

variable {text : List Char} {resolve : Resolver} {p next : Position} {pass : Pass}
  {later : List Position}

theorem GoesOn.cursor_le (h : GoesOn text resolve p next) :
    p.cursor + 7 ≤ next.cursor ∧ next.cursor ≤ text.length := by
  obtain ⟨pass, hstep, hnext⟩ := h
  exact cursor_of_step hstep hnext

theorem wellFounded_goesOn (text : List Char) (resolve : Resolver) :
    WellFounded fun next p => GoesOn text resolve p next := by
  apply Subrelation.wf _ (measure fun p : Position => text.length - p.cursor).wf
  rintro next p ⟨pass, hstep, hnext⟩
  exact remaining_lt_of_step hstep hnext

/-- Each pass that goes on moves the cursor by the length of `<script` at least. -/
theorem cursor_add_le (hp : p.cursor ≤ text.length)
    (h : List.IsChain (GoesOn text resolve) (p :: later)) :
    p.cursor + 7 * later.length ≤ text.length := by
  induction later generalizing p with
  | nil => simpa using hp
  | cons next later ih =>
    obtain ⟨hgoes, hchain⟩ := List.isChain_cons_cons.1 h
    obtain ⟨hadd, hle⟩ := hgoes.cursor_le
    have := ih hle hchain
    simp only [List.length_cons]
    omega

/-- A scan makes one pass from each position that it runs through; from the last one there may be
no further tag. -/
theorem passes_of_runsThrough (h : RunsThrough (GoesOn text resolve) p later) :
    passes text resolve p = (p :: later).filterMap (step text resolve) := by
  induction later generalizing p with
  | nil =>
    rcases hstep : step text resolve p with _ | pass
    · simp [passes_of_none hstep, hstep]
    · have hnone : pass.outcome.next? = none :=
        Option.eq_none_iff_forall_ne_some.2 fun next hnext =>
          runsThrough_nil.1 h next ⟨pass, hstep, hnext⟩
      simp [passes_of_some hstep, hstep, hnone]
  | cons next later ih =>
    obtain ⟨⟨pass, hstep, hnext⟩, hrun⟩ := runsThrough_cons.1 h
    rw [passes_of_some hstep, hnext, List.filterMap_cons_some hstep, ← ih hrun]
    rfl

/-! ### Calls of the resolver -/

/-- A pass that asks the resolver moves past a closing angle, beside `<script`. -/
theorem cursor_add_asked_le (h : step text resolve p = some pass) :
    p.cursor + 8 * pass.asked.toList.length ≤
      (pass.outcome.next?.map (·.cursor)).getD text.length := by
  rw [step_eq] at h
  obtain ⟨tag, ht, rfl⟩ := Option.map_eq_some_iff.1 h
  obtain ⟨hle, htag⟩ := Tag.bounds_of_startFrom? ht
  have hlength : Tag.opening.length = 7 := rfl
  rw [next?_pass, asked_pass]
  have hf := hasFate_fate text resolve tag
  generalize fate text resolve tag = f at hf
  cases hf with
  | lookAlike | unterminated => simp [Fate.asked, Fate.next?]; omega
  | dropped _ hangle =>
    have := Tag.bounds_of_closingAngle? hangle
    simp [Fate.asked, Fate.next?]
    omega
  | unclosed _ hangle =>
    have := Tag.bounds_of_closingAngle? hangle
    simp [Fate.asked, Fate.next?]
    omega
  | block _ hangle _ hstop =>
    have := Tag.bounds_of_closingAngle? hangle
    have := le_of_find?_eq_some hstop
    simp [Fate.asked, Fate.next?]
    omega

theorem cursor_add_length_asked_le (hp : p.cursor ≤ text.length) :
    p.cursor + 8 * (asked (passes text resolve p)).length ≤ text.length := by
  fun_induction passes text resolve p with
  | case1 p hstep => simpa [asked] using hp
  | case2 p pass hstep hnext =>
    have := cursor_add_asked_le hstep
    rw [asked_cons]
    simpa [hnext, asked] using this
  | case3 p pass hstep next hnext ih =>
    have hpass := cursor_add_asked_le hstep
    have := ih (cursor_of_step hstep hnext).2
    simp only [hnext, Option.map_some, Option.getD_some] at hpass
    simp only [asked_cons, List.length_append]
    omega

end

/-- How the loop of a scan comes to its end on the text, and how soon. -/
structure Ends (text : List Char) (resolve : Resolver) : Prop where
  /-- A pass that does not stop the scan moves the cursor on, but not past the end of the text. -/
  moves : ∀ p next, GoesOn text resolve p next →
    p.cursor + 7 ≤ next.cursor ∧ next.cursor ≤ text.length
  /-- The loop can be told by recursion on the positions that it leads to. -/
  wellFounded : WellFounded fun next p => GoesOn text resolve p next
  /-- However far the scan has come, it has begun no more passes than this. -/
  starts_le : ∀ later, List.IsChain (GoesOn text resolve) ({} :: later) →
    (({} : Position) :: later).length ≤ text.length / 7 + 1
  /-- The scan runs through positions until it stops, and these give its passes. -/
  runs : ∃ later, RunsThrough (GoesOn text resolve) {} later ∧
    passes text resolve {} = ({} :: later).filterMap (step text resolve)
  /-- The resolver is asked no more often than this. -/
  asked_le : (asked (passes text resolve {})).length ≤ text.length / 8

theorem ends (text : List Char) (resolve : Resolver) : Ends text resolve := by
  have hstart : ({} : Position).cursor ≤ text.length := Nat.zero_le _
  constructor
  · exact fun p next h => h.cursor_le
  · exact wellFounded_goesOn text resolve
  · intro later h
    have : 0 + 7 * later.length ≤ text.length := cursor_add_le hstart h
    simp only [List.length_cons]
    omega
  · obtain ⟨later, hrun⟩ := exists_runsThrough (wellFounded_goesOn text resolve) {}
    exact ⟨later, hrun, passes_of_runsThrough hrun⟩
  · have : 0 + 8 * (asked (passes text resolve {})).length ≤ text.length :=
      cursor_add_length_asked_le hstart
    omega

end Scan

/-! ### The search for a tag -/

/-- The indices at which the pattern stands in the text. -/
def Text.occurrences (p s : List Char) : List Nat :=
  (List.range s.length).filter fun i => Occurs p s i

theorem Text.mem_occurrences {p s : List Char} {i : Nat} (hp : p ≠ []) :
    i ∈ occurrences p s ↔ Occurs p s i := by
  rw [occurrences, List.mem_filter, List.mem_range, decide_eq_true_iff]
  constructor
  · exact fun h => h.2
  · intro h
    have := h.add_length_le hp
    have := List.length_pos_iff.2 hp
    exact ⟨by omega, h⟩

/-- An occurrence that is passed over is one less to come. -/
theorem Text.length_filter_occurrences_lt {p s : List Char} {i pos next : Nat} (hp : p ≠ [])
    (hi : Occurs p s i) (hpos : pos ≤ i) (hnext : i < next) :
    ((occurrences p s).filter (next ≤ ·)).length < ((occurrences p s).filter (pos ≤ ·)).length := by
  have hfilter : (occurrences p s).filter (next ≤ ·) =
      ((occurrences p s).filter (pos ≤ ·)).filter (next ≤ ·) := by
    rw [List.filter_filter]
    apply List.filter_congr
    intro j _
    simp
    omega
  rw [hfilter, List.length_filter_lt_length_iff_exists]
  refine ⟨i, ?_, by simpa using hnext⟩
  simpa [mem_occurrences hp] using ⟨hi, hpos⟩

namespace Tag

/-- The `<script` that the search finds first from `pos` on is in a comment, and the search is
tried again from `next`, just past the end of that comment. -/
def Retries (text : List Char) (pos next : Nat) : Prop :=
  ∃ i e, find? opening text pos = some i ∧ Comment.closingAround? text i = some e ∧
    next = e + Comment.closing.length

section

variable {text : List Char} {pos next : Nat} {later : List Nat}

theorem Retries.moves (h : Retries text pos next) : pos < next ∧ next ≤ text.length ∧
    ∃ e, pos ≤ e ∧ Occurs Comment.closing text e ∧ next = e + Comment.closing.length := by
  obtain ⟨i, e, hi, he, rfl⟩ := h
  obtain ⟨c, -, hclosing, -, hie⟩ := Comment.of_closingAround?_eq_some he
  have := le_of_find?_eq_some hi
  exact ⟨by omega, (Comment.bounds_of_closingAround? he).2, e, by omega,
    occurs_of_find?_eq_some hclosing, rfl⟩

theorem wellFounded_retries (text : List Char) :
    WellFounded fun next pos => Retries text pos next := by
  apply Subrelation.wf _ (measure fun pos => text.length - pos).wf
  intro next pos h
  obtain ⟨hlt, hle, -⟩ := h.moves
  show text.length - next < text.length - pos
  omega

theorem startFrom?_of_retries (h : Retries text pos next) :
    startFrom? text pos = startFrom? text next := by
  obtain ⟨i, e, hi, he, rfl⟩ := h
  conv_lhs => rw [startFrom?]
  split
  · next hnone => simp [hi] at hnone
  · next j hj =>
    obtain rfl : i = j := by simpa [hi] using hj
    split
    · next hnone => simp [he] at hnone
    · next e' he' =>
      obtain rfl : e = e' := by simpa [he] using he'
      rfl

/-- A search that is not tried again gives what it has found. -/
theorem startFrom?_of_stops (h : ∀ next, ¬ Retries text pos next) :
    startFrom? text pos = find? opening text pos := by
  rw [startFrom?]
  split
  · next hnone => rw [hnone]
  · next i hi =>
    split
    · rw [hi]
    · next e he => exact absurd ⟨i, e, hi, he, rfl⟩ (h _)

theorem startFrom?_of_runsThrough (h : RunsThrough (Retries text) pos later) :
    startFrom? text pos = find? opening text (later.getLastD pos) := by
  induction later generalizing pos with
  | nil => exact startFrom?_of_stops (runsThrough_nil.1 h)
  | cons next later ih =>
    obtain ⟨hretry, hrun⟩ := runsThrough_cons.1 h
    rw [startFrom?_of_retries hretry, ih hrun, List.getLastD_cons]

/-- Each retry is past a `-->` of its own, which no earlier one was past. -/
theorem length_le_occurrences (h : List.IsChain (Retries text) (pos :: later)) :
    later.length ≤ ((occurrences Comment.closing text).filter (pos ≤ ·)).length := by
  induction later generalizing pos with
  | nil => exact Nat.zero_le _
  | cons next later ih =>
    obtain ⟨hretry, hchain⟩ := List.isChain_cons_cons.1 h
    obtain ⟨-, -, e, hpos, he, rfl⟩ := hretry.moves
    have hlt : e < e + Comment.closing.length := Nat.lt_add_of_pos_right (by decide)
    have := length_filter_occurrences_lt (by decide) he hpos hlt
    have := ih hchain
    simp only [List.length_cons]
    omega

end

/-- How the search for a tag from a position comes to its end in the text, and how soon. -/
structure SearchEnds (text : List Char) (pos : Int) : Prop where
  /-- A negative position counts from the end of the text, and one before the start is the start. -/
  start_eq : (searchStart text pos : Int) = if pos < 0 then max 0 (text.length + pos) else pos
  /-- A retry moves on, just past a `-->` that is not before the position that it leaves. -/
  moves : ∀ i next, Retries text i next → i < next ∧ next ≤ text.length ∧
    ∃ e, i ≤ e ∧ Occurs Comment.closing text e ∧ next = e + Comment.closing.length
  /-- The search can be told by recursion on the positions that it is tried from. -/
  wellFounded : WellFounded fun next i => Retries text i next
  /-- However far the search has come, it was tried again no more often than this, each time from
  a later position and so past another `-->`. -/
  retries_le : ∀ later, List.IsChain (Retries text) (searchStart text pos :: later) →
    (searchStart text pos :: later).Pairwise (· < ·) ∧
      later.length ≤ (occurrences Comment.closing text).length
  /-- The search is tried again until it stops, and what it then finds is the answer. -/
  runs : ∃ later, RunsThrough (Retries text) (searchStart text pos) later ∧
    startSigned? text pos = find? opening text (later.getLastD (searchStart text pos))

theorem searchEnds (text : List Char) (pos : Int) : SearchEnds text pos := by
  constructor
  · exact searchStart_eq text pos
  · exact fun i next h => h.moves
  · exact wellFounded_retries text
  · intro later h
    have hforward := h.imp fun i next hretry => hretry.moves.1
    exact ⟨hforward.pairwise, (length_le_occurrences h).trans (List.length_filter_le _ _)⟩
  · obtain ⟨later, hrun⟩ := exists_runsThrough (wellFounded_retries text) (searchStart text pos)
    exact ⟨later, hrun, startFrom?_of_runsThrough hrun⟩

end Tag

/-- Both loops come to their ends on every text, whatever the resolver and wherever the search
begins. -/
theorem loops_end (text : List Char) (resolve : Resolver) :
    Scan.Ends text resolve ∧ ∀ pos : Int, Tag.SearchEnds text pos :=
  ⟨Scan.ends text resolve, Tag.searchEnds text⟩

/-- The search for the first tag is tried again from behind the comment, and the scan goes on after
the look-alike that it then finds. -/
theorem loops_end_hiddenTag :
    Scan.GoesOn Tag.hiddenTag Resolver.known {} { cursor := 21 } ∧
      0 + 7 ≤ 21 ∧ 21 ≤ Tag.hiddenTag.length ∧
      Tag.Retries Tag.hiddenTag 0 14 ∧ occurrences Comment.closing Tag.hiddenTag = [11] ∧
      [14].length ≤ (occurrences Comment.closing Tag.hiddenTag).length := by
  have hgoes : Scan.GoesOn Tag.hiddenTag Resolver.known {} { cursor := 21 } :=
    ⟨_, by with_unfolding_all rfl, rfl⟩
  have hretry : Tag.Retries Tag.hiddenTag 0 14 := ⟨4, 11, by decide, by decide, rfl⟩
  obtain ⟨hscan, hsearch⟩ := loops_end Tag.hiddenTag Resolver.known
  obtain ⟨hforward, hinside⟩ := hscan.moves _ _ hgoes
  refine ⟨hgoes, hforward, hinside, hretry, by decide, ?_⟩
  exact ((hsearch 0).retries_le [14] (List.isChain_pair.2 hretry)).2

end ScriptBlocks
