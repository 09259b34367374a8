import Mathlib.Data.List.Basic
import ScriptBlocks.Proofs.Offsets

/-!
# Scanning texts put together

A text is scanned apart from the text after it when its scan runs out of tags, its comments are
closed in it, and no `<script` and no `<!--` lies across the seam (`Scan.Settled`).  Then the
comments of neither part reach into the other (`Tag.startsAt_append_add`), each tag has the fate
that it has in its own part (`Scan.fate_append`, `Scan.fate_append_add`), and the scan of the whole
visits the tags of the first part and then those of the second (`Scan.visits_append`).
-/

namespace ScriptBlocks

open Text

/-! ### Comments -/

namespace Comment

/-- Every `<!--` has a `-->` at or after it. -/
def Closed (text : List Char) : Prop :=
  ∀ c, Occurs opening text c → ∃ e, c ≤ e ∧ Occurs closing text e

section

variable {s t : List Char} {c i : Nat}

theorem closed_iff_forall_lt {text : List Char} : Closed text ↔
    ∀ c, c < text.length → Occurs opening text c → find? closing text c ≠ none := by
  constructor
  · intro h c _ hc hnone
    obtain ⟨e, hce, he⟩ := h c hc
    exact find?_eq_iff.1 hnone e hce he
  · intro h c hc
    have hlt : c < text.length := by
      have := hc.add_length_le (by decide)
      have : 0 < opening.length := by decide
      omega
    obtain ⟨e, he⟩ := Option.ne_none_iff_exists'.1 (h c hlt hc)
    exact ⟨e, le_of_find?_eq_some he, occurs_of_find?_eq_some he⟩

instance (text : List Char) : Decidable (Closed text) :=
  decidable_of_iff _ closed_iff_forall_lt.symm

theorem Closed.find?_closing (hs : Closed s) (hc : Occurs opening s c) :
    ∃ e, find? closing s c = some e := by
  obtain ⟨e, hce, he⟩ := hs c hc
  rcases h : find? closing s c with _ | e'
  · exact absurd he (find?_eq_iff.1 h e hce)
  · exact ⟨e', rfl⟩

theorem Encloses.append (h : Encloses s i) : Encloses (s ++ t) i := by
  obtain ⟨c, e, hc, he, hci, hie⟩ := h
  exact ⟨c, e, hc.append, find?_append (by decide) he, hci, hie⟩

/-- When its comments are closed, a text encloses the same with more text after it. -/
theorem encloses_append_iff (hs : Closed s) (hi : Occurs Tag.opening s i) :
    Encloses (s ++ t) i ↔ Encloses s i := by
  refine ⟨?_, Encloses.append⟩
  rintro ⟨c, e, hc, he, hci, hie⟩
  have hlt : c + opening.length ≤ s.length := by
    have := opening_add_length_le hc (hi.append (t := t)) hci
    have := hi.add_length_le (by decide)
    omega
  have hc' := (occurs_append_of_le hlt).1 hc
  obtain ⟨e', he'⟩ := hs.find?_closing hc'
  obtain rfl : e' = e := by
    rw [find?_append (by decide) he'] at he
    exact Option.some.inj he
  exact ⟨c, e', hc', he', hci, hie⟩

/-- When its comments are closed, a text encloses nothing in the text after it. -/
theorem encloses_append_add (hs : Closed s) (ha : Apart opening s t) :
    Encloses (s ++ t) (s.length + i) ↔ Encloses t i := by
  constructor
  · rintro ⟨c, e, hc, he, hci, hie⟩
    rcases Nat.lt_or_ge c s.length with hlt | hge
    · -- A comment that begins in the first text ends there.
      obtain ⟨e', he'⟩ := hs.find?_closing ((ha.occurs_append_iff hlt).1 hc)
      have := add_length_le_of_find?_eq_some (by decide) he'
      rw [find?_append (by decide) he'] at he
      cases he
      omega
    · obtain ⟨d, rfl⟩ := Nat.exists_eq_add_of_le hge
      rw [find?_append_add] at he
      obtain ⟨e', he', rfl⟩ := Option.map_eq_some_iff.1 he
      exact ⟨d, e', occurs_append_add.1 hc, he', by omega, by omega⟩
  · rintro ⟨c, e, hc, he, hci, hie⟩
    exact ⟨s.length + c, s.length + e, occurs_append_add.2 hc, by rw [find?_append_add, he]; rfl,
      by omega, by omega⟩

end

end Comment

/-! ### Tags -/

namespace Tag

variable {s t : List Char} {i : Nat}

theorem startsAt_append (hs : Comment.Closed s) (ha : Apart opening s t) (hi : i < s.length) :
    StartsAt (s ++ t) i ↔ StartsAt s i := by
  rw [startsAt_iff, startsAt_iff, ha.occurs_append_iff hi]
  exact and_congr_right fun hocc => not_congr (Comment.encloses_append_iff hs hocc)

theorem startsAt_append_add (hs : Comment.Closed s) (ha : Apart Comment.opening s t) :
    StartsAt (s ++ t) (s.length + i) ↔ StartsAt t i := by
  rw [startsAt_iff, startsAt_iff, occurs_append_add, Comment.encloses_append_add hs ha]

theorem nameEndsAt_append (hi : i < s.length) : nameEndsAt (s ++ t) i = nameEndsAt s i := by
  rw [nameEndsAt, List.getElem?_append_left hi, ← nameEndsAt]

theorem nameEndsAt_append_add : nameEndsAt (s ++ t) (s.length + i) = nameEndsAt t i := by
  rw [nameEndsAt, List.getElem?_append_right (Nat.le_add_right _ _), Nat.add_sub_cancel_left,
    ← nameEndsAt]

theorem token_append {angle : Nat} (h : angle ≤ s.length) :
    token (s ++ t) i angle = token s i angle := by
  rw [token, slice_append_of_le h, ← token]

theorem token_append_add {angle : Nat} :
    token (s ++ t) (s.length + i) (s.length + angle) = token t i angle := by
  rw [token, Nat.add_assoc, slice_append_add, ← token]

end Tag

/-- The script with `n` more bytes before it in the document. -/
def Script.moved (n : Nat) (script : Script) : Script :=
  { script with start := script.start + n }

namespace Scan

/-! ### Fates -/

section

variable {s t : List Char} {resolve : Resolver} {tag next : Nat}

/-- The fate of a tag with `n` more characters before the text. -/
def Fate.moved (n : Nat) : Fate → Fate
  | lookAlike => lookAlike
  | unterminated => unterminated
  | dropped token angle => dropped token (n + angle)
  | unclosed token => unclosed token
  | block token found angle stop => block token found (n + angle) (n + stop)

/-- More text after it leaves the fate of a tag after which the scan goes on, unless the text ends
with its name. -/
theorem fate_append (hn : after? s resolve tag = some next)
    (hlt : tag + Tag.opening.length < s.length) :
    fate (s ++ t) resolve tag = fate s resolve tag := by
  have hf := hasFate_fate s resolve tag
  unfold after? at hn
  generalize fate s resolve tag = f at hf hn
  have hname : Tag.nameEndsAt (s ++ t) (tag + Tag.opening.length) =
      Tag.nameEndsAt s (tag + Tag.opening.length) := Tag.nameEndsAt_append hlt
  cases hf with
  | lookAlike h => exact (HasFate.lookAlike (hname.trans h)).eq
  | unterminated => cases hn
  | dropped h hangle htype =>
    have htoken := Tag.token_append (t := t) (i := tag)
      (Nat.le_of_lt (Tag.bounds_of_closingAngle? hangle).2)
    rw [← htoken] at htype ⊢
    exact (HasFate.dropped (hname.trans h) (Tag.closingAngle?_append hangle) htype).eq
  | unclosed => cases hn
  | block h hangle htype hstop =>
    have htoken := Tag.token_append (t := t) (i := tag)
      (Nat.le_of_lt (Tag.bounds_of_closingAngle? hangle).2)
    rw [← htoken] at htype ⊢
    exact (HasFate.block (hname.trans h) (Tag.closingAngle?_append hangle) htype
      (find?_append (by decide) hstop)).eq

theorem fate_append_add :
    fate (s ++ t) resolve (s.length + tag) = (fate t resolve tag).moved s.length := by
  have hf := hasFate_fate t resolve tag
  generalize fate t resolve tag = f at hf ⊢
  have hname : Tag.nameEndsAt (s ++ t) (s.length + tag + Tag.opening.length) =
      Tag.nameEndsAt t (tag + Tag.opening.length) := by
    rw [Nat.add_assoc, Tag.nameEndsAt_append_add]
  have hclose : Tag.closingAngle? (s ++ t) (s.length + tag + Tag.opening.length) =
      (Tag.closingAngle? t (tag + Tag.opening.length)).map (s.length + ·) := by
    rw [Nat.add_assoc, Tag.closingAngle?_append_add]
  rw [fate_eq_iff]
  cases hf with
  | lookAlike h => exact .lookAlike (hname.trans h)
  | unterminated h hangle =>
    rw [hangle] at hclose
    exact .unterminated (hname.trans h) hclose
  | dropped h hangle htype =>
    rw [hangle] at hclose
    rw [← Tag.token_append_add (s := s)] at htype
    rw [Fate.moved, ← Tag.token_append_add (s := s)]
    exact .dropped (hname.trans h) hclose htype
  | unclosed h hangle htype hstop =>
    rw [hangle] at hclose
    rw [← Tag.token_append_add (s := s)] at htype
    rw [Fate.moved, ← Tag.token_append_add (s := s)]
    refine .unclosed (hname.trans h) hclose htype ?_
    rw [Nat.add_assoc, find?_append_add, hstop]
    rfl
  | block h hangle htype hstop =>
    rw [hangle] at hclose
    rw [← Tag.token_append_add (s := s)] at htype
    rw [Fate.moved, ← Tag.token_append_add (s := s)]
    refine .block (hname.trans h) hclose htype ?_
    rw [Nat.add_assoc, find?_append_add, hstop]
    rfl

theorem after?_append_add :
    after? (s ++ t) resolve (s.length + tag) = (after? t resolve tag).map (s.length + ·) := by
  rw [after?, fate_append_add, after?]
  cases fate t resolve tag <;>
    simp only [Fate.moved, Fate.next?, Option.map_some, Option.map_none, Nat.add_assoc]

theorem scriptAt_append (hn : after? s resolve tag = some next)
    (hlt : tag + Tag.opening.length < s.length) :
    scriptAt (s ++ t) resolve tag = scriptAt s resolve tag := by
  have hf := hasFate_fate s resolve tag
  rw [scriptAt, fate_append hn hlt, scriptAt]
  generalize fate s resolve tag = f at hf
  cases hf with
  | lookAlike => rfl
  | unterminated => rfl
  | dropped => rfl
  | unclosed => rfl
  | block _ hangle _ hstop =>
    have hangle := (Tag.bounds_of_closingAngle? hangle).2
    have hstop := add_length_le_of_find?_eq_some (by decide) hstop
    simp only [Fate.script?]
    rw [slice_append_of_le (by omega), List.take_append_of_le_length hangle]

theorem scriptAt_append_add :
    scriptAt (s ++ t) resolve (s.length + tag) =
      (scriptAt t resolve tag).map (Script.moved (Utf8.size s)) := by
  rw [scriptAt, fate_append_add, scriptAt]
  cases fate t resolve tag with
  | lookAlike => rfl
  | unterminated => rfl
  | dropped => rfl
  | unclosed => rfl
  | block token found angle stop =>
    simp only [Fate.moved, Fate.script?, Option.map_some, Script.moved]
    rw [Nat.add_assoc, slice_append_add, List.take_length_add_append, Utf8.size_append,
      Int.natCast_add, Int.add_comm]

theorem asked_append_add :
    (fate (s ++ t) resolve (s.length + tag)).asked = (fate t resolve tag).asked := by
  rw [fate_append_add]
  cases fate t resolve tag <;> rfl

end

/-! ### Scans -/

/-- The scan of the first text ends for want of tags, and neither a comment nor a `<script` reaches
from it into the second. -/
structure Settled (resolve : Resolver) (s t : List Char) : Prop where
  /-- The scan of the first text goes on after every tag that it comes to. -/
  runs_out : ∀ tag ∈ visits s resolve 0, after? s resolve tag ≠ none
  /-- The comments of the first text are closed in it. -/
  closed : Comment.Closed s
  /-- No `<script` lies across the seam. -/
  tag_apart : Apart Tag.opening s t
  /-- No `<!--` lies across the seam. -/
  comment_apart : Apart Comment.opening s t
  /-- The name of no tag ends at the seam. -/
  not_suffix : ¬ Tag.opening <:+ s

section

variable {resolve : Resolver} {s t : List Char} {pos : Nat}

theorem visits_append_add (hs : Comment.Closed s) (ha : Apart Comment.opening s t) :
    visits (s ++ t) resolve (s.length + pos) =
      (visits t resolve pos).map (s.length + ·) := by
  have hstart : ∀ pos, Tag.startFrom? (s ++ t) (s.length + pos) =
      (Tag.startFrom? t pos).map (s.length + ·) := fun pos =>
    Tag.startFrom?_eq_iff.2 ((Tag.isFirst_startFrom? t pos).add fun _ =>
      Tag.startsAt_append_add hs ha)
  fun_induction visits t resolve pos with
  | case1 pos hnone =>
    rw [visits_of_none (by rw [hstart, hnone]; rfl)]
    rfl
  | case2 pos tag htag hstop =>
    rw [visits_of_some (by rw [hstart, htag]; rfl), after?_append_add, hstop]
    rfl
  | case3 pos tag htag next hnext ih =>
    rw [visits_of_some (by rw [hstart, htag]; rfl), after?_append_add, hnext]
    exact congrArg (List.cons _) ih

/-- A scan of two texts put together goes through the first one and then begins anew. -/
theorem visits_append_of_le (hpos : pos ≤ s.length)
    (hruns : ∀ tag ∈ visits s resolve pos, after? s resolve tag ≠ none)
    (hs : Comment.Closed s) (ha : Apart Tag.opening s t) (hsuffix : ¬ Tag.opening <:+ s) :
    visits (s ++ t) resolve pos = visits s resolve pos ++ visits (s ++ t) resolve s.length := by
  fun_induction visits s resolve pos with
  | case1 pos hnone =>
    have hstart : Tag.startFrom? (s ++ t) pos = Tag.startFrom? (s ++ t) s.length :=
      Tag.startFrom?_eq_iff.2 ((Tag.isFirst_startFrom? (s ++ t) s.length).of_le hpos
        fun j hj hlt hstarts => Tag.startFrom?_eq_iff.1 hnone j hj
          ((Tag.startsAt_append hs ha hlt).1 hstarts))
    rw [List.nil_append]
    rcases hc : Tag.startFrom? (s ++ t) s.length with _ | tag
    · rw [visits_of_none hc, visits_of_none (hstart.trans hc)]
    · rw [visits_of_some hc, visits_of_some (hstart.trans hc)]
  | case2 pos tag htag hstop => exact absurd hstop (hruns tag List.mem_cons_self)
  | case3 pos tag htag next hnext ih =>
    have hfirst := Tag.startFrom?_eq_iff.1 htag
    have hle := hfirst.2.1.1.add_length_le (by decide)
    -- The character after `<script`, which decides on the name, is in the first text.
    have hlt : tag + Tag.opening.length < s.length := Nat.lt_of_le_of_ne hle fun heq =>
      hsuffix (hfirst.2.1.1.suffix heq)
    have hstart : Tag.startFrom? (s ++ t) pos = some tag :=
      Tag.startFrom?_eq_iff.2 (hfirst.congr_some fun j hj =>
        (Tag.startsAt_append hs ha (by omega)).symm)
    have hafter : after? (s ++ t) resolve tag = some next := by
      rw [after?, fate_append hnext hlt]
      exact hnext
    rw [visits_of_some hstart, hafter, List.cons_append]
    exact congrArg (List.cons tag) (ih (after?_le_length hnext hle)
      fun k hk => hruns k (List.mem_cons_of_mem _ hk))

/-- A scan of two texts put together visits the tags of the first and then those of the second. -/
theorem visits_append (h : Settled resolve s t) :
    visits (s ++ t) resolve 0 =
      visits s resolve 0 ++ (visits t resolve 0).map (s.length + ·) := by
  rw [visits_append_of_le (Nat.zero_le _) h.runs_out h.closed h.tag_apart h.not_suffix,
    ← visits_append_add h.closed h.comment_apart, Nat.add_zero]

theorem Settled.of_mem_visits {tag : Nat} (h : Settled resolve s t)
    (htag : tag ∈ visits s resolve 0) :
    (∃ next, after? s resolve tag = some next) ∧ tag + Tag.opening.length < s.length := by
  have hocc := (startsAt_of_mem_visits htag).1
  refine ⟨Option.ne_none_iff_exists'.1 (h.runs_out tag htag), ?_⟩
  exact Nat.lt_of_le_of_ne (hocc.add_length_le (by decide)) fun heq =>
    h.not_suffix (hocc.suffix heq)

/-- The scripts of two texts put together are those of the first and then those of the second,
moved on by the bytes of the first. -/
theorem scripts_append (h : Settled resolve s t) :
    scripts (passes (s ++ t) resolve {}) = scripts (passes s resolve {}) ++
      (scripts (passes t resolve {})).map (Script.moved (Utf8.size s)) := by
  rw [scripts_passes, scripts_passes, scripts_passes, visits_append h, List.filterMap_append,
    List.filterMap_map, List.map_filterMap]
  refine congr (congrArg _ (List.filterMap_congr fun tag htag => ?_))
    (List.filterMap_congr fun tag _ => scriptAt_append_add)
  obtain ⟨⟨next, hn⟩, hlt⟩ := h.of_mem_visits htag
  exact scriptAt_append hn hlt

/-- The tokens asked for in two texts put together are those of the first and then those of the
second. -/
theorem asked_append (h : Settled resolve s t) :
    asked (passes (s ++ t) resolve {}) =
      asked (passes s resolve {}) ++ asked (passes t resolve {}) := by
  rw [asked_passes, asked_passes, asked_passes, visits_append h, List.filterMap_append,
    List.filterMap_map]
  refine congr (congrArg _ (List.filterMap_congr fun tag htag => ?_))
    (List.filterMap_congr fun tag _ => asked_append_add)
  obtain ⟨⟨next, hn⟩, hlt⟩ := h.of_mem_visits htag
  rw [fate_append hn hlt]

/-- A scan of which no pass stops goes on after every tag that it comes to. -/
theorem after?_ne_none_of_passes
    (h : ∀ pass ∈ passes s resolve {}, pass.outcome ≠ .unterminated ∧ pass.outcome ≠ .unclosed) :
    ∀ tag ∈ visits s resolve 0, after? s resolve tag ≠ none := by
  intro tag htag hnone
  have hmap : (passes s resolve {}).map (·.outcome.next?.map (·.cursor)) =
      (visits s resolve 0).map (after? s resolve) :=
    map_passes (fun p tag _ _ => next?_pass _ s p tag) (counted_start s)
  have hmem := List.mem_map_of_mem (f := after? s resolve) htag
  rw [← hmap, hnone] at hmem
  obtain ⟨pass, hpass, hnext⟩ := List.mem_map.1 hmem
  obtain ⟨hterm, hclosed⟩ := h pass hpass
  rcases hout : pass.outcome with _ | _ | _ | _ | _ <;> rw [hout] at hterm hclosed hnext
  · cases hnext
  · exact hterm rfl
  · cases hnext
  · exact hclosed rfl
  · cases hnext

end

end Scan

theorem Script.stop_moved (n : Nat) (s : Script) : (s.moved n).stop = s.stop + n := by
  simp only [Script.stop, Script.moved]
  omega

/-- Scanning is compositional: when the scan of the first text runs out of tags, its comments are
closed, and it ends with no beginning of `<script` or `<!--`, the scripts of the whole are those of
the first text and then those of the second, moved on by the bytes of the first, and the resolver
is asked for the tokens of the first and then for those of the second. -/
theorem parse_append {first second : String} {resolve : Resolver}
    (hruns : ∀ pass ∈ Scan.passes first.toList resolve {},
      pass.outcome ≠ .unterminated ∧ pass.outcome ≠ .unclosed)
    (hclosed : Comment.Closed first.toList)
    (htag : ∀ q, q ≠ [] → q <+: Tag.opening → ¬ q <:+ first.toList)
    (hcomment : ∀ q, q ≠ [] → q <+: Comment.opening → q ≠ Comment.opening →
      ¬ q <:+ first.toList) :
    parse (first ++ second) resolve =
        parse first resolve ++ (parse second resolve).map (Script.moved (Utf8.size first.toList)) ∧
      (parse (first ++ second) resolve).map Script.stop =
        (parse first resolve).map Script.stop ++
          (parse second resolve).map (fun s => s.stop + (Utf8.size first.toList : Int)) ∧
      Scan.asked (Scan.passes (first ++ second).toList resolve {}) =
        Scan.asked (Scan.passes first.toList resolve {}) ++
          Scan.asked (Scan.passes second.toList resolve {}) := by
  have h : Scan.Settled resolve first.toList second.toList :=
    { runs_out := Scan.after?_ne_none_of_passes hruns
      closed := hclosed
      tag_apart := apart_of_not_suffix fun q hq hqp _ => htag q hq hqp
      comment_apart := apart_of_not_suffix hcomment
      not_suffix := htag Tag.opening (by decide) (List.prefix_refl _) }
  have hscripts : parse (first ++ second) resolve = parse first resolve ++
      (parse second resolve).map (Script.moved (Utf8.size first.toList)) := by
    rw [parse, String.toList_append]
    exact Scan.scripts_append h
  refine ⟨hscripts, ?_, ?_⟩
  · rw [hscripts, List.map_append, List.map_map]
    exact congrArg _ (List.map_congr_left fun s _ => Script.stop_moved _ s)
  · rw [String.toList_append]
    exact Scan.asked_append h

/-- The first part of a document: a comment with a tag in it, a script that is not ASCII, a
look-alike and a dropped block. -/
def splitFirst : String :=
  "<!-- <script> --><script lang='tsx'>é</script><script-x><script lang=zz>a</script>"

/-- The second part, which begins with the end of a comment. -/
def splitSecond : String := "--><script>b</script>"

theorem parse_append_split :
    parse (splitFirst ++ splitSecond) =
        parse splitFirst ++ (parse splitSecond).map (Script.moved (Utf8.size splitFirst.toList)) ∧
      parse splitFirst ≠ [] ∧ parse splitSecond ≠ [] := by
  have hlast : splitFirst.toList = splitFirst.toList.dropLast ++ ['>'] := by decide
  refine ⟨(parse_append (by decide +kernel) (by decide +kernel) (fun q hq hqp => ?_)
    (fun q hq hqp _ => ?_)).1, by decide +kernel, by decide +kernel⟩
  · rw [hlast]
    exact not_suffix_of_not_mem (by decide) hq hqp
  · rw [hlast]
    exact not_suffix_of_not_mem (by decide) hq hqp

end ScriptBlocks
