import ScriptBlocks.Proofs.Composition
import ScriptBlocks.Proofs.Ranges

/-!
# Bodies and the rest of a document

The body of a block reaches the other blocks in one way only: through the comment markers in it.
When another body stands in its place and the comments still hide the same tags outside of it
(`Comment.AgreeOutside`), the other scripts stay as they are and those after it move by the
difference in bytes (`parse_replaceBody`).  A marker in the new body may hide another block
(`not_parse_replaceBody`).
-/

namespace ScriptBlocks

open Text

/-! ### Comments around a part of a text -/

namespace Comment

section

variable {s t : List Char} {c i : Nat}

theorem not_closed_iff : ¬ Closed s ↔ ∃ c, Occurs opening s c ∧ find? closing s c = none := by
  constructor
  · intro h
    by_contra hne
    apply h
    intro c hc
    rcases he : find? closing s c with _ | e
    · exact absurd ⟨c, hc, he⟩ hne
    · exact ⟨e, le_of_find?_eq_some he, occurs_of_find?_eq_some he⟩
  · rintro ⟨c, hc, hnone⟩ h
    obtain ⟨e, hce, he⟩ := h c hc
    exact find?_eq_iff.1 hnone e hce he

/-- A comment that is open at the end of a text ends with the first `-->` after it. -/
theorem find?_closing_append (ha : Apart closing s t) (hnone : find? closing s c = none)
    (hc : c ≤ s.length) :
    find? closing (s ++ t) c = (find? closing t 0).map (s.length + ·) := by
  rw [← find?_append_length, find?_eq_iff]
  apply (isFirst_find? closing (s ++ t) s.length).of_le hc
  intro j hj hlt hocc
  exact find?_eq_iff.1 hnone j hj ((ha.occurs_append_iff hlt).1 hocc)

/-- What comments hide after a text depends on it by one thing: whether it leaves one open. -/
theorem encloses_append_add_iff (ho : Apart opening s t) (ha : Apart closing s t) :
    Encloses (s ++ t) (s.length + i) ↔
      (¬ Closed s ∧ ∃ e, find? closing t 0 = some e ∧ i < e) ∨ Encloses t i := by
  constructor
  · rintro ⟨c, e, hc, he, hci, hie⟩
    rcases Nat.lt_or_ge c s.length with hlt | hge
    · have hc' := (ho.occurs_append_iff hlt).1 hc
      rcases hfind : find? closing s c with _ | e'
      · rw [find?_closing_append ha hfind (Nat.le_of_lt hlt)] at he
        obtain ⟨e', he', rfl⟩ := Option.map_eq_some_iff.1 he
        exact Or.inl ⟨not_closed_iff.2 ⟨c, hc', hfind⟩, e', he', by omega⟩
      · have := add_length_le_of_find?_eq_some (by decide) hfind
        rw [find?_append (by decide) hfind] at he
        cases he
        omega
    · obtain ⟨d, rfl⟩ := Nat.exists_eq_add_of_le hge
      rw [find?_append_add] at he
      obtain ⟨e', he', rfl⟩ := Option.map_eq_some_iff.1 he
      exact Or.inr ⟨d, e', occurs_append_add.1 hc, he', by omega, by omega⟩
  · rintro (⟨hs, e, he, hie⟩ | ⟨c, e, hc, he, hci, hie⟩)
    · obtain ⟨c, hc, hnone⟩ := not_closed_iff.1 hs
      have hle := hc.add_length_le (by decide)
      have hopening : 0 < opening.length := by decide
      have hfind := find?_closing_append ha hnone (by omega)
      rw [he] at hfind
      exact ⟨c, s.length + e, hc.append, hfind, by omega, by omega⟩
    · exact ⟨s.length + c, s.length + e, occurs_append_add.2 hc, by rw [find?_append_add, he]; rfl,
        by omega, by omega⟩

/-- What comments hide in a text depends on the text after it by one thing: whether that has a
`-->`. -/
theorem encloses_append_iff_of_apart (ha : Apart closing s t) (hi : Occurs Tag.opening s i) :
    Encloses (s ++ t) i ↔ Encloses s i ∨
      (∃ c, Occurs opening s c ∧ c < i ∧ find? closing s c = none) ∧ closing <:+: t := by
  have hle := hi.add_length_le (by decide)
  constructor
  · rintro ⟨c, e, hc, he, hci, hie⟩
    have hlt := opening_add_length_le hc (hi.append (t := t)) hci
    have hc' := (occurs_append_of_le (by omega)).1 hc
    rcases hfind : find? closing s c with _ | e'
    · rw [find?_closing_append ha hfind (by omega)] at he
      obtain ⟨e', he', -⟩ := Option.map_eq_some_iff.1 he
      exact Or.inr ⟨⟨c, hc', hci, hfind⟩, (occurs_of_find?_eq_some he').isInfix⟩
    · rw [find?_append (by decide) hfind] at he
      cases he
      exact Or.inl ⟨c, e, hc', hfind, hci, hie⟩
  · rintro (h | ⟨⟨c, hc, hci, hnone⟩, hinfix⟩)
    · exact h.append
    · obtain ⟨j, hj⟩ := isInfix_iff_exists_occurs.1 hinfix
      have hopening : 0 < Tag.opening.length := by decide
      have hfind := find?_closing_append ha hnone (by omega)
      rcases he : find? closing t 0 with _ | e
      · exact absurd hj (find?_eq_iff.1 he j (Nat.zero_le j))
      · rw [he] at hfind
        exact ⟨c, s.length + e, hc.append, hfind, hci, by omega⟩

end

/-- With either body between the two texts, comments cover the same `<script`s in these. -/
structure AgreeOutside (before body body' after : List Char) : Prop where
  before_iff : ∀ i, Occurs Tag.opening before i →
    (Covers (before ++ body ++ after) i ↔ Covers (before ++ body' ++ after) i)
  after_iff : ∀ i, Occurs Tag.opening after i →
    (Covers (before ++ body ++ after) ((before ++ body).length + i) ↔
      Covers (before ++ body' ++ after) ((before ++ body').length + i))

section

variable {before body body' after : List Char}

/-- Two bodies are alike to the comments of a document when both or neither leave a comment open
before what follows, and both or neither bring a `-->` for what precedes. -/
theorem AgreeOutside.of_markers (hbefore : ∃ s, before = s ++ ['>'])
    (hafter : ∃ t, after = '<' :: t)
    (hopen : Closed (before ++ body) ↔ Closed (before ++ body'))
    (hclose : closing <:+: body ++ after ↔ closing <:+: body' ++ after) :
    AgreeOutside before body body' after := by
  obtain ⟨s, rfl⟩ := hbefore
  obtain ⟨t, rfl⟩ := hafter
  have hapart : ∀ u, Apart closing (s ++ ['>']) u := fun _ =>
    apart_concat (r := ['-', '-']) (by decide)
  constructor
  · intro i hi
    rw [List.append_assoc _ body, List.append_assoc _ body', Tag.covers_iff_encloses hi.append,
      Tag.covers_iff_encloses hi.append, encloses_append_iff_of_apart (hapart _) hi,
      encloses_append_iff_of_apart (hapart _) hi, hclose]
  · intro i hi
    rw [Tag.covers_iff_encloses (occurs_append_add.2 hi),
      Tag.covers_iff_encloses (occurs_append_add.2 hi),
      encloses_append_add_iff (apart_cons_of_not_mem (by decide))
        (apart_cons_of_not_mem (by decide)),
      encloses_append_add_iff (apart_cons_of_not_mem (by decide))
        (apart_cons_of_not_mem (by decide)), hopen]

theorem AgreeOutside.startsAt_before (h : AgreeOutside before body body' after) {i : Nat}
    (hi : i + Tag.opening.length ≤ before.length) :
    Tag.StartsAt (before ++ body ++ after) i ↔ Tag.StartsAt (before ++ body' ++ after) i := by
  unfold Tag.StartsAt
  rw [List.append_assoc, List.append_assoc, occurs_append_of_le hi, occurs_append_of_le hi,
    ← List.append_assoc, ← List.append_assoc]
  exact and_congr_right fun hocc => not_congr (h.before_iff i hocc)

theorem AgreeOutside.startsAt_after (h : AgreeOutside before body body' after) (i : Nat) :
    Tag.StartsAt (before ++ body ++ after) ((before ++ body).length + i) ↔
      Tag.StartsAt (before ++ body' ++ after) ((before ++ body').length + i) := by
  unfold Tag.StartsAt
  rw [occurs_append_add, occurs_append_add]
  exact and_congr_right fun hocc => not_congr (h.after_iff i hocc)

end

end Comment

/-! ### Scans of two documents -/

namespace Scan

section

variable {resolve : Resolver} {s s' t t' : List Char} {tag next pos : Nat}

/-- A tag that leads the scan to an index of the first text does so without the second. -/
theorem after?_of_append (h : after? (s ++ t) resolve tag = some next) (hnext : next ≤ s.length)
    (hlt : tag + Tag.opening.length < s.length) : after? s resolve tag = some next := by
  have hf := hasFate_fate (s ++ t) resolve tag
  unfold after? at h
  generalize fate (s ++ t) resolve tag = f at h hf
  have hname : Tag.nameEndsAt (s ++ t) (tag + Tag.opening.length) =
      Tag.nameEndsAt s (tag + Tag.opening.length) := Tag.nameEndsAt_append hlt
  cases hf with
  | lookAlike hn =>
    rw [after?, (HasFate.lookAlike (hname.symm.trans hn)).eq]
    exact h
  | unterminated => cases h
  | @dropped angle hn hangle htype =>
    cases h
    rw [Tag.token_append (Nat.le_of_succ_le hnext)] at htype
    rw [after?, (HasFate.dropped (hname.symm.trans hn)
      (Tag.closingAngle?_of_append hangle hnext) htype).eq]
    rfl
  | unclosed => cases h
  | @block angle stop found hn hangle htype hstop =>
    cases h
    have := le_of_find?_eq_some hstop
    rw [Tag.token_append (by omega)] at htype
    rw [after?, (HasFate.block (hname.symm.trans hn)
      (Tag.closingAngle?_of_append hangle (by omega)) htype
      (find?_of_append hstop hnext)).eq]
    rfl

/-- Two documents with the same beginning, in which the same tags start, are scanned alike up to a
tag of the beginning.  By induction on the tags before it: each leads the scan no further than to
it, and so has its fate from the beginning alone. -/
theorem visits_append_of_visits_eq {earlier later : List Nat}
    (hstarts : ∀ i, i + Tag.opening.length ≤ s.length →
      (Tag.StartsAt (s ++ t) i ↔ Tag.StartsAt (s ++ t') i))
    (htag : tag + Tag.opening.length < s.length)
    (hvisits : visits (s ++ t) resolve pos = earlier ++ tag :: later) :
    visits (s ++ t') resolve pos =
        earlier ++ tag :: ((after? (s ++ t') resolve tag).map (visits (s ++ t') resolve)).getD [] ∧
      earlier.filterMap (scriptAt (s ++ t') resolve) =
        earlier.filterMap (scriptAt (s ++ t) resolve) := by
  have hstart : ∀ pos tag, Tag.startFrom? (s ++ t) pos = some tag →
      tag + Tag.opening.length ≤ s.length → Tag.startFrom? (s ++ t') pos = some tag := by
    intro pos tag h hle
    apply Tag.startFrom?_eq_iff.2
    apply (Tag.startFrom?_eq_iff.1 h).congr_some
    intro j hj
    exact hstarts j (by omega)
  induction earlier generalizing pos with
  | nil =>
    obtain ⟨hfirst, -⟩ := eq_of_visits_eq_cons hvisits
    exact ⟨visits_of_some (hstart pos tag hfirst (Nat.le_of_lt htag)), rfl⟩
  | cons first earlier ih =>
    obtain ⟨hfirst, hrest⟩ := eq_of_visits_eq_cons hvisits
    rcases hafter : after? (s ++ t) resolve first with _ | next
    · rw [hafter] at hrest
      exact absurd hrest (by simp)
    · rw [hafter] at hrest
      have hvisits' : visits (s ++ t) resolve next = earlier ++ tag :: later := hrest.symm
      have hmem : tag ∈ visits (s ++ t) resolve next := by
        rw [hvisits']
        exact List.mem_append_right earlier List.mem_cons_self
      have hle := le_of_mem_visits hmem
      have hlt := add_length_le_of_after? hafter
      have hopening : 0 < Tag.opening.length := by decide
      have hafter' : after? s resolve first = some next :=
        after?_of_append hafter (by omega) (by omega)
      obtain ⟨ihvisits, ihscripts⟩ := ih hvisits'
      constructor
      · rw [visits_of_some (hstart pos first hfirst (by omega)), after?,
          fate_append hafter' (by omega)]
        show first :: ((after? s resolve first).map (visits (s ++ t') resolve)).getD [] = _
        rw [hafter']
        exact congrArg (List.cons first) ihvisits
      · rw [List.filterMap_cons, List.filterMap_cons, scriptAt_append hafter' (by omega),
          scriptAt_append hafter' (by omega), ihscripts]

/-- Two documents with the same end, in which the same tags start, are scanned alike from an index
of the end on. -/
theorem exists_visits_append_add (resolve : Resolver) (pos : Nat)
    (hstarts : ∀ i, Tag.StartsAt (s ++ t) (s.length + i) ↔ Tag.StartsAt (s' ++ t) (s'.length + i)) :
    ∃ tags : List Nat, visits (s ++ t) resolve (s.length + pos) = tags.map (s.length + ·) ∧
      visits (s' ++ t) resolve (s'.length + pos) = tags.map (s'.length + ·) := by
  have hstart : ∀ pos, ∃ o : Option Nat,
      Tag.startFrom? (s ++ t) (s.length + pos) = o.map (s.length + ·) ∧
        Tag.startFrom? (s' ++ t) (s'.length + pos) = o.map (s'.length + ·) := by
    intro pos
    obtain ⟨o, ho, hfirst⟩ := (Tag.isFirst_startFrom? (s ++ t) (s.length + pos)).exists_add
    exact ⟨o, ho, Tag.startFrom?_eq_iff.2 (hfirst.add fun i => (hstarts i).symm)⟩
  generalize hp : s.length + pos = p
  fun_induction visits (s ++ t) resolve p generalizing pos with
  | case1 p hnone =>
    obtain ⟨o, ho, ho'⟩ := hstart pos
    rw [hp, hnone] at ho
    rw [Option.map_eq_none_iff.1 ho.symm] at ho'
    exact ⟨[], rfl, visits_of_none ho'⟩
  | case2 p tag htag hstop =>
    obtain ⟨o, ho, ho'⟩ := hstart pos
    rw [hp, htag] at ho
    obtain ⟨i, rfl, rfl⟩ := Option.map_eq_some_iff.1 ho.symm
    rw [after?_append_add, Option.map_eq_none_iff] at hstop
    refine ⟨[i], rfl, ?_⟩
    rw [visits_of_some ho', after?_append_add, hstop]
    rfl
  | case3 p tag htag next hnext ih =>
    obtain ⟨o, ho, ho'⟩ := hstart pos
    rw [hp, htag] at ho
    obtain ⟨i, rfl, rfl⟩ := Option.map_eq_some_iff.1 ho.symm
    rw [after?_append_add] at hnext
    obtain ⟨j, hj, rfl⟩ := Option.map_eq_some_iff.1 hnext
    obtain ⟨tags, htags, htags'⟩ := ih j rfl
    refine ⟨i :: tags, by rw [htags]; rfl, ?_⟩
    rw [visits_of_some ho', after?_append_add, hj]
    exact congrArg (List.cons _) htags'

theorem filterMap_scriptAt_append_add (tags : List Nat) :
    (tags.map (s.length + ·)).filterMap (scriptAt (s ++ t) resolve) =
      (tags.filterMap (scriptAt t resolve)).map (Script.moved (Utf8.size s)) := by
  rw [List.filterMap_map, List.map_filterMap]
  exact List.filterMap_congr fun tag _ => scriptAt_append_add

end

/-! ### The block with the body -/

section

variable {resolve : Resolver} {before body body' after : List Char} {tag angle stop : Nat}
  {token : String} {found : SourceType} {script : Script}

theorem LiesAt.eq_length (h : LiesAt (before ++ body ++ after) tag angle stop script)
    (hbody : script.sourceText.toList = body) (hstart : script.start = Utf8.size before) :
    angle + 1 = before.length ∧ stop = (before ++ body).length := by
  obtain ⟨hle, hlength⟩ := h.bounds
  have hangle : angle + 1 = before.length := by
    apply Utf8.eq_of_size_take_eq (s := before ++ body ++ after) (by omega)
      (by simp only [List.length_append]; omega)
    have hsize := h.start_eq
    rw [hstart] at hsize
    rw [List.append_assoc, List.take_append_length, ← List.append_assoc]
    exact Int.ofNat.inj hsize.symm
  have hslice := congrArg List.length h.toList_eq
  rw [hbody, length_slice (by omega)] at hslice
  refine ⟨hangle, ?_⟩
  rw [List.length_append]
  omega

theorem LiesAt.exists_eq_concat (h : LiesAt (before ++ body ++ after) tag angle stop script)
    (hangle : angle + 1 = before.length) : ∃ s, before = s ++ ['>'] := by
  have hget := h.getElem?_angle
  rw [List.append_assoc, List.getElem?_append_left (by omega)] at hget
  refine ⟨before.take angle, ?_⟩
  have htake := List.take_add_one (l := before) (i := angle)
  rw [hangle, List.take_length, hget] at htake
  exact htake

theorem LiesAt.exists_eq_bodyEnd_append
    (h : LiesAt (before ++ body ++ after) tag angle stop script)
    (hstop : stop = (before ++ body).length) : ∃ t, after = bodyEnd ++ t := by
  have hocc : Occurs bodyEnd (before ++ body ++ after) ((before ++ body).length + 0) :=
    hstop ▸ occurs_of_find?_eq_some h.find?_stop
  obtain ⟨t, ht⟩ := occurs_append_add.1 hocc
  exact ⟨t, ht.symm⟩

theorem fate_replaceBody
    (hfate : fate (before ++ body ++ after) resolve tag = .block token found angle stop)
    (hangle : angle + 1 = before.length) (hafter : ∃ t, after = bodyEnd ++ t)
    (hbody' : ¬ bodyEnd <:+: body') :
    fate (before ++ body' ++ after) resolve tag =
      .block token found angle (before ++ body').length := by
  obtain ⟨t, rfl⟩ := hafter
  have hfind : find? bodyEnd (before ++ (body' ++ (bodyEnd ++ t))) before.length =
      some (before ++ body').length := by
    have hend : find? bodyEnd (body' ++ bodyEnd) 0 = some body'.length :=
      find?_of_not_isInfix hbody'
        (apart_self (r := ['<', '/', 's', 'c', 'r', 'i', 'p', 't']) (by decide))
    rw [find?_append_length, ← List.append_assoc, find?_append (by decide) hend,
      List.length_append]
    rfl
  rw [List.append_assoc] at hfate ⊢
  cases fate_eq_iff.1 hfate with
  | block hname hclose htype _ =>
    have hle := (Tag.bounds_of_closingAngle? hclose).1
    rw [Tag.nameEndsAt_append (by omega)] at hname
    rw [Tag.token_append (by omega)] at htype ⊢
    rw [← Tag.token_append (t := body' ++ (bodyEnd ++ t)) (by omega)] at htype ⊢
    apply HasFate.eq
    apply HasFate.block
    · rw [Tag.nameEndsAt_append (by omega), hname]
    · exact Tag.closingAngle?_append (Tag.closingAngle?_of_append hclose (by omega))
    · exact htype
    · rw [hangle, hfind]

theorem scriptAt_replaceBody
    (hfate : fate (before ++ body ++ after) resolve tag = .block token found angle stop)
    (hfate' : fate (before ++ body' ++ after) resolve tag =
      .block token found angle (before ++ body').length)
    (hscript : scriptAt (before ++ body ++ after) resolve tag = some script)
    (hangle : angle + 1 = before.length) :
    scriptAt (before ++ body' ++ after) resolve tag =
      some { script with sourceText := String.ofList body' } := by
  rw [scriptAt, hfate] at hscript
  rw [scriptAt, hfate']
  cases hscript
  simp only [Fate.script?]
  rw [hangle, List.append_assoc, List.append_assoc, List.length_append, slice_append_append,
    List.take_append_length, List.take_append_length]

/-- The scan of the document with another body: before the block it gives the same scripts, and
after it the scripts of what follows, moved on by the bytes before that. -/
theorem scripts_visits_replaceBody {earlier later : List Nat}
    (hvisits : visits (before ++ body ++ after) resolve 0 = earlier ++ tag :: later)
    (hfate : fate (before ++ body ++ after) resolve tag = .block token found angle stop)
    (hlies : LiesAt (before ++ body ++ after) tag angle stop script)
    (hscript : scriptAt (before ++ body ++ after) resolve tag = some script)
    (hangle : angle + 1 = before.length) (hstop : stop = (before ++ body).length)
    (hbody' : ¬ bodyEnd <:+: body') (hagree : Comment.AgreeOutside before body body' after) :
    ∃ rest : List Script, later.filterMap (scriptAt (before ++ body ++ after) resolve) =
        rest.map (Script.moved (Utf8.size (before ++ body))) ∧
      (visits (before ++ body' ++ after) resolve 0).filterMap
          (scriptAt (before ++ body' ++ after) resolve) =
        earlier.filterMap (scriptAt (before ++ body ++ after) resolve) ++
          { script with sourceText := String.ofList body' } ::
            rest.map (Script.moved (Utf8.size (before ++ body'))) := by
  have hfate' := fate_replaceBody hfate hangle (hlies.exists_eq_bodyEnd_append hstop) hbody'
  have htag := hlies.tag_le_angle
  obtain ⟨tags, htags, htags'⟩ := exists_visits_append_add resolve bodyEnd.length
    hagree.startsAt_after
  have hlater : later = tags.map ((before ++ body).length + ·) := by
    rw [eq_of_visits_eq_append hvisits, after?_of_block hfate, hstop, ← htags]
    rfl
  have hstarts : ∀ i, i + Tag.opening.length ≤ before.length →
      (Tag.StartsAt (before ++ (body ++ after)) i ↔
        Tag.StartsAt (before ++ (body' ++ after)) i) := by
    intro i hi
    rw [← List.append_assoc, ← List.append_assoc]
    exact hagree.startsAt_before hi
  obtain ⟨hvisits', hearlier⟩ := visits_append_of_visits_eq hstarts (by omega)
    ((List.append_assoc before body after) ▸ hvisits)
  rw [← List.append_assoc before body', ← List.append_assoc before body] at hearlier
  rw [← List.append_assoc, after?_of_block hfate'] at hvisits'
  refine ⟨tags.filterMap (scriptAt after resolve), ?_, ?_⟩
  · rw [hlater, filterMap_scriptAt_append_add]
  · rw [hvisits', List.filterMap_append, hearlier, List.filterMap_cons,
      scriptAt_replaceBody hfate hfate' hscript hangle]
    show _ ++ _ :: List.filterMap _ (visits _ _ _) = _
    rw [htags', filterMap_scriptAt_append_add]

end

end Scan

/-! ### The scripts of both documents -/

/-- The script is what stands in the document between the two texts. -/
structure Script.StandsBetween (script : Script) (text before after : String) : Prop where
  text_eq : text = before ++ script.sourceText ++ after
  start_eq : script.start = Utf8.size before.toList

/-- The scripts of a document when the one of number `k` has got another body: those before it
stay and those after it are moved by the difference in bytes. -/
def withBody (scripts : List Script) (k : Nat) (script : Script) (body : String) : List Script :=
  scripts.take k ++ { script with sourceText := body } ::
    (scripts.drop (k + 1)).map fun s =>
      { s with start := s.start + (Utf8.size body.toList - Utf8.size script.sourceText.toList) }

theorem Scan.LiesAt.standsBetween {text : String} {tag angle stop : Nat} {script : Script}
    (h : LiesAt text.toList tag angle stop script) : script.StandsBetween text
      (String.ofList (text.toList.take (angle + 1))) (String.ofList (text.toList.drop stop)) := by
  constructor
  · apply String.toList_injective
    rw [String.toList_append, String.toList_append, h.toList_eq, String.toList_ofList,
      String.toList_ofList, List.append_assoc, take_append_slice_append_drop h.bounds.1]
  · rw [String.toList_ofList]
    exact h.start_eq

/-- A member of what a list gives comes from one place in the list. -/
theorem exists_eq_append_of_getElem?_filterMap {α β : Type} {f : α → Option β} {l : List α}
    {k : Nat} {b : β} (h : (l.filterMap f)[k]? = some b) :
    ∃ l₁ a l₂, l = l₁ ++ a :: l₂ ∧ f a = some b ∧
      l₁.filterMap f = (l.filterMap f).take k ∧ l₂.filterMap f = (l.filterMap f).drop (k + 1) := by
  obtain ⟨hlt, hget⟩ := List.getElem?_eq_some_iff.1 h
  have hsplit : l.filterMap f = (l.filterMap f).take k ++ b :: (l.filterMap f).drop (k + 1) := by
    rw [← hget, ← List.drop_eq_getElem_cons hlt, List.take_append_drop]
  obtain ⟨l₁, l₂, hl, h₁, h₂⟩ := List.filterMap_eq_append_iff.1 hsplit
  obtain ⟨l₃, a, l₄, hl', hnone, ha, h₄⟩ := List.filterMap_eq_cons_iff.1 h₂
  refine ⟨l₁ ++ l₃, a, l₄, by rw [hl, hl', List.append_assoc], ha, ?_, h₄⟩
  rw [List.filterMap_append, h₁, List.filterMap_eq_nil_iff.2 hnone, List.append_nil]

theorem moved_append_replaceBody (before body body' : List Char) (s : Script) :
    s.moved (Utf8.size (before ++ body')) =
      { s.moved (Utf8.size (before ++ body)) with
        start := (s.moved (Utf8.size (before ++ body))).start +
          (Utf8.size body' - Utf8.size body) } := by
  simp only [Script.moved, Utf8.size_append]
  congr 1
  omega

/-- The body of a block reaches the other blocks only through comment markers: with another body
that the comments outside cannot tell from it, the document has the same scripts but for that body,
and those after it are moved by the difference in bytes.  The comments cannot tell the bodies from
each other if both or neither leave a comment open and a `-->` stands from the body on with both or
neither. -/
theorem parse_replaceBody {text : String} {resolve : Resolver} {script : Script} {k : Nat}
    (hscript : (parse text resolve)[k]? = some script) :
    (∃ before after, script.StandsBetween text before after) ∧
      ∀ before after body : String, script.StandsBetween text before after →
        ¬ bodyEnd <:+: body.toList →
          (Comment.AgreeOutside before.toList script.sourceText.toList body.toList after.toList →
            parse (before ++ body ++ after) resolve =
              withBody (parse text resolve) k script body) ∧
          ((Comment.Closed (before ++ script.sourceText).toList ↔
              Comment.Closed (before ++ body).toList) →
            (Comment.closing <:+: (script.sourceText ++ after).toList ↔
              Comment.closing <:+: (body ++ after).toList) →
            Comment.AgreeOutside before.toList script.sourceText.toList body.toList
              after.toList) := by
  rw [parse_eq] at hscript ⊢
  obtain ⟨earlier, tag, later, hvisits, htag, hearlier, hlater⟩ :=
    exists_eq_append_of_getElem?_filterMap hscript
  obtain ⟨token, found, angle, stop, hfate, hlies⟩ := Scan.exists_liesAt htag
  refine ⟨⟨_, _, hlies.standsBetween⟩, ?_⟩
  rintro before after body ⟨rfl, hstart⟩ hbody
  simp only [parse_eq, String.toList_append] at hvisits hfate hlies htag hearlier hlater ⊢
  obtain ⟨hangle, hstop⟩ := hlies.eq_length rfl hstart
  constructor
  · intro hagree
    obtain ⟨rest, hrest, hscripts⟩ := Scan.scripts_visits_replaceBody hvisits hfate hlies htag
      hangle hstop hbody hagree
    rw [hscripts, withBody, ← hearlier, ← hlater, hrest, List.map_map, String.ofList_toList]
    exact congrArg (fun moved => _ ++ _ :: rest.map moved) (funext fun s =>
      moved_append_replaceBody _ _ _ s)
  · obtain ⟨t, ht⟩ := hlies.exists_eq_bodyEnd_append hstop
    exact Comment.AgreeOutside.of_markers (hlies.exists_eq_concat hangle) ⟨_, ht⟩

/-- A dropped block and the beginning of a block. -/
def beforeBody : String := "<script lang=z></script><script>"

/-- The end of that block, a comment with a tag in it, and another block. -/
def afterBody : String := "</script><!-- <script> --><script lang=ts>b</script>"

theorem parse_replaceBody_closedComment :
    (parse (beforeBody ++ "a" ++ afterBody))[0]? = some ⟨"a", SourceType.mjs, 32, true⟩ ∧
      parse (beforeBody ++ "<!-- € --><script>" ++ afterBody) =
        withBody (parse (beforeBody ++ "a" ++ afterBody)) 0 ⟨"a", SourceType.mjs, 32, true⟩
          "<!-- € --><script>" ∧
      (parse (beforeBody ++ "a" ++ afterBody)).map (·.start) = [32, 75] ∧
      (parse (beforeBody ++ "<!-- € --><script>" ++ afterBody)).map (·.start) = [32, 94] := by
  have hscript : (parse (beforeBody ++ "a" ++ afterBody))[0]? =
      some ⟨"a", SourceType.mjs, 32, true⟩ := by decide +kernel
  have hstart : (32 : Int) = Utf8.size beforeBody.toList := by decide +kernel
  obtain ⟨hreplace, hagree⟩ := (parse_replaceBody hscript).2 beforeBody afterBody
    "<!-- € --><script>" ⟨rfl, hstart⟩ (by decide +kernel)
  refine ⟨hscript, hreplace (hagree ?_ ?_), ?_, ?_⟩ <;> decide +kernel

/-- Without regard to comments this fails: a comment that is left open in the body of the first
block hides the second block. -/
theorem not_parse_replaceBody : ¬ ∀ (text before after body : String) (resolve : Resolver)
    (script : Script) (k : Nat), (parse text resolve)[k]? = some script →
      script.StandsBetween text before after → ¬ bodyEnd <:+: body.toList →
        parse (before ++ body ++ after) resolve =
          withBody (parse text resolve) k script body := by
  intro h
  have hscript : (parse "<script>a</script><script>b</script>-->")[0]? =
      some ⟨"a", SourceType.mjs, 8, true⟩ := by decide +kernel
  have hfalse := h "<script>a</script><script>b</script>-->" "<script>"
    "</script><script>b</script>-->" "<!--" Resolver.known _ 0 hscript
    ⟨by decide +kernel, by decide +kernel⟩ (by decide +kernel)
  exact absurd hfalse (by decide +kernel)

end ScriptBlocks
