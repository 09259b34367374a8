import ScriptBlocks.Proofs.Offsets

/-!
# The ranges of scripts

Each script of a document takes a range of its bytes that stands between the `>` of a tag and a
`</script>` (`Script.DelimitedIn`).  Where a block lies in the text (`Scan.LiesAt`) says all of
that, and how far the next block is: at least the `</script>` of this one and a `<script>` lie
between two bodies (`Scan.stop_add_le_start`), so that a document holds at most one script for
every 17 characters (`ranges_parse`).
-/

namespace ScriptBlocks

open Text

/-- The range of the script lies in the document, right after a `>` and right before a
`</script>`, and the script itself has no `</script>` in it. -/
structure Script.DelimitedIn (s : Script) (text : List Char) : Prop where
  start_pos : 0 < s.start
  start_le_stop : s.start ≤ s.stop
  stop_le_size : s.stop ≤ (Utf8.encode text).length
  preceded : Utf8.encode ['>'] <:+ (Utf8.encode text).take s.start.toNat
  followed : Utf8.encode bodyEnd <+: (Utf8.encode text).drop s.stop.toNat
  no_end : ¬ bodyEnd <:+: s.sourceText.toList

namespace Scan

/-- The script is the body of the tag at index `tag`, between the closing angle of the tag and the
first `</script>` from there. -/
structure LiesAt (text : List Char) (tag angle stop : Nat) (s : Script) : Prop where
  tag_le_angle : tag + Tag.opening.length ≤ angle
  getElem?_angle : text[angle]? = some '>'
  find?_stop : find? bodyEnd text (angle + 1) = some stop
  toList_eq : s.sourceText.toList = slice text (angle + 1) stop
  start_eq : s.start = Utf8.size (text.take (angle + 1))
  stop_eq : s.stop = Utf8.size (text.take stop)

section

variable {text : List Char} {resolve : Resolver} {tag tag' angle stop angle' stop' pos : Nat}
  {s t : Script}

theorem after?_of_block {token : String} {found : SourceType}
    (h : fate text resolve tag = .block token found angle stop) :
    after? text resolve tag = some (stop + bodyEnd.length) := by
  rw [after?, h]
  rfl

theorem exists_liesAt (h : scriptAt text resolve tag = some s) :
    ∃ token found angle stop, fate text resolve tag = .block token found angle stop ∧
      LiesAt text tag angle stop s := by
  obtain ⟨token, found, angle, stop, hfate, rfl⟩ := exists_fate_of_scriptAt_eq_some h
  refine ⟨token, found, angle, stop, hfate, ?_⟩
  cases fate_eq_iff.1 hfate with
  | block _ hangle _ hstop =>
    have hle := le_of_find?_eq_some hstop
    have hstop' := add_length_le_of_find?_eq_some (by decide) hstop
    have hcut := Script.cutAt_of_slice hle (Nat.le_of_add_right_le hstop')
      (typeFor (Tag.token text tag angle) found)
    have hlength : angle + 1 + (slice text (angle + 1) stop).length = stop := by
      rw [length_slice (by omega)]
      omega
    constructor
    · exact (Tag.bounds_of_closingAngle? hangle).1
    · exact Tag.getElem?_closingAngle? hangle
    · exact hstop
    · exact String.toList_ofList
    · rfl
    · have := hcut.stop_eq
      rwa [String.toList_ofList, hlength] at this

theorem LiesAt.bounds (h : LiesAt text tag angle stop s) :
    angle + 1 ≤ stop ∧ stop + bodyEnd.length ≤ text.length :=
  ⟨le_of_find?_eq_some h.find?_stop, add_length_le_of_find?_eq_some (by decide) h.find?_stop⟩

theorem LiesAt.delimitedIn (h : LiesAt text tag angle stop s) : s.DelimitedIn text := by
  obtain ⟨hle, hlength⟩ := h.bounds
  have hstart := Utf8.size_take_add_le (s := text) (Nat.zero_le (angle + 1)) (by omega)
  have hstop := Utf8.size_take_add_le (s := text) hle (by omega)
  have hend := Utf8.size_take_add_le (s := text) (i := stop) (by omega) (Nat.le_refl text.length)
  rw [List.take_length] at hend
  constructor
  · rw [h.start_eq]
    omega
  · rw [h.start_eq, h.stop_eq]
    omega
  · rw [h.stop_eq, Utf8.length_encode]
    omega
  · rw [h.start_eq, Int.toNat_natCast, Utf8.take_size_encode, List.take_add_one, h.getElem?_angle,
      Utf8.encode_append]
    exact List.suffix_append _ _
  · obtain ⟨rest, hrest⟩ := occurs_of_find?_eq_some h.find?_stop
    rw [h.stop_eq, Int.toNat_natCast, Utf8.drop_size_encode, ← hrest, Utf8.encode_append]
    exact List.prefix_append _ _
  · rw [h.toList_eq]
    exact not_isInfix_slice (by decide) h.find?_stop

/-- Between two blocks lie the `</script>` of the first and the `<script>` of the second. -/
theorem LiesAt.stop_add_le_start (hs : LiesAt text tag angle stop s)
    (ht : LiesAt text tag' angle' stop' t) (hle : stop + bodyEnd.length ≤ tag') :
    s.stop + 17 ≤ t.start := by
  obtain ⟨hle', hlength'⟩ := ht.bounds
  have hangle := ht.tag_le_angle
  have hbodyEnd : bodyEnd.length = 9 := rfl
  have hopening : Tag.opening.length = 7 := rfl
  have := Utf8.size_take_add_le (s := text) (i := stop) (j := angle' + 1) (by omega) (by omega)
  rw [hs.stop_eq, ht.start_eq]
  omega

theorem pairwise_scripts_visits (text : List Char) (resolve : Resolver) :
    ((visits text resolve 0).filterMap (scriptAt text resolve)).Pairwise
      fun s t => s.stop + 17 ≤ t.start := by
  rw [List.pairwise_filterMap]
  apply (pairwise_visits text resolve 0).imp_of_mem
  intro tag tag' htag htag' hlt s hs t ht
  obtain ⟨_, _, _, _, hfate, hlies⟩ := exists_liesAt hs
  obtain ⟨_, _, _, _, -, hlies'⟩ := exists_liesAt ht
  -- The scan comes to the second tag, so that it has gone on before it after the first block.
  obtain ⟨next, hnext, hle⟩ := (mem_visits_iff.1 htag').2.2 tag htag hlt
  rw [after?_of_block hfate] at hnext
  cases hnext
  exact hlies.stop_add_le_start hlies' hle

/-- From any index on, each script of a scan takes 17 characters of the text: those of a `<script`,
a closing angle and a `</script>`. -/
theorem length_scripts_visits_le (text : List Char) (resolve : Resolver)
    (hpos : pos ≤ text.length) :
    17 * ((visits text resolve pos).filterMap (scriptAt text resolve)).length + pos ≤
      text.length := by
  fun_induction visits text resolve pos with
  | case1 => simpa using hpos
  | case2 pos tag _ hstop => simpa [scriptAt_of_stop hstop] using hpos
  | case3 pos tag htag next hnext ih =>
    have hb := Tag.bounds_of_startFrom? htag
    have := add_length_le_of_after? hnext
    have ih := ih (after?_le_length hnext hb.2)
    rw [List.filterMap_cons]
    rcases hs : scriptAt text resolve tag with _ | s
    · show 17 * (List.filterMap _ _).length + pos ≤ _
      omega
    · obtain ⟨_, _, _, _, hfate, hlies⟩ := exists_liesAt hs
      have hstop := hlies.bounds.1
      have hangle := hlies.tag_le_angle
      have hbodyEnd : bodyEnd.length = 9 := rfl
      have hopening : Tag.opening.length = 7 := rfl
      rw [after?_of_block hfate] at hnext
      cases hnext
      rw [List.length_cons]
      omega

end

end Scan

/-- The scripts of a document are delimited by a `>` and a `</script>`; their ranges increase and
are disjoint, with 17 bytes at least between one and the next; and there is at most one of them
for every 17 characters. -/
theorem ranges_parse (text : String) (resolve : Resolver) :
    (∀ s ∈ parse text resolve, s.DelimitedIn text.toList) ∧
      (parse text resolve).Pairwise (fun s t => s.start < t.start ∧ s.stop + 17 ≤ t.start) ∧
      (parse text resolve).length ≤ text.length / 17 := by
  rw [parse_eq]
  have hdelimited : ∀ s ∈ (Scan.visits text.toList resolve 0).filterMap
      (Scan.scriptAt text.toList resolve), s.DelimitedIn text.toList := by
    intro s hs
    obtain ⟨tag, -, hscript⟩ := List.mem_filterMap.1 hs
    obtain ⟨_, _, _, _, -, hlies⟩ := Scan.exists_liesAt hscript
    exact hlies.delimitedIn
  refine ⟨hdelimited, ?_, ?_⟩
  · apply (Scan.pairwise_scripts_visits text.toList resolve).imp_of_mem
    intro s t hs _ hst
    have := (hdelimited s hs).start_le_stop
    exact ⟨by omega, hst⟩
  · have := Scan.length_scripts_visits_le text.toList resolve (Nat.zero_le _)
    rw [String.length_toList] at this
    omega

/-- Two blocks side by side, which are as close as two blocks can be. -/
def adjacentBlocks : String := "<script>é</script><script></script>"

theorem ranges_parse_adjacentBlocks :
    (parse adjacentBlocks).map (fun s => (s.start, s.stop)) = [(8, 10), (27, 27)] ∧
      (∀ s ∈ parse adjacentBlocks, s.DelimitedIn adjacentBlocks.toList) ∧
      (parse adjacentBlocks).length ≤ adjacentBlocks.length / 17 :=
  ⟨by with_unfolding_all decide, (ranges_parse adjacentBlocks Resolver.known).1,
    (ranges_parse adjacentBlocks Resolver.known).2.2⟩

end ScriptBlocks
