import ScriptBlocks.Proofs.Document
import ScriptBlocks.Proofs.Language

/-!
# Parsing a document that was written down

Parsing gives back the scripts of a document from the way it is written (`parse_render`).  A plain
text and a comment give no scripts and a block gives its own; each of them is settled before what
comes next (`Plain.settled`, `Note.settled`, `Block.settled`), so that the scan of a document is
put together from the scans of its parts (`Scan.scripts_append`).
-/

namespace ScriptBlocks

open Text

section

variable {resolve : Resolver} {s t : List Char} {i : Nat}

/-- What follows a plain text in a document: nothing, or a marker. -/
def AtMarker (t : List Char) : Prop := t = [] ∨ ∃ u, t = '<' :: u

theorem AtMarker.apart {p : List Char} (ht : AtMarker t) (hp : p ≠ []) (hc : '<' ∉ p.tail) :
    Apart p s t := by
  rcases ht with rfl | ⟨u, rfl⟩
  · exact apart_nil hp
  · exact apart_cons_of_not_mem hc

theorem Comment.closed_of_not_isInfix (h : ¬ Comment.opening <:+: s) : Comment.Closed s :=
  fun _ hc => absurd hc.isInfix h

theorem Scan.visits_eq_nil {pos : Nat} (h : ∀ i, pos ≤ i → ¬ Tag.StartsAt s i) :
    Scan.visits s resolve pos = [] :=
  Scan.visits_of_none (Tag.startFrom?_eq_iff.2 h)

/-- A text that ends with an angle is apart from any text after it: no `<script` and no `<!--` has
an angle in it. -/
theorem Scan.Settled.of_angle
    (hruns : ∀ tag ∈ Scan.visits (s ++ ['>']) resolve 0,
      Scan.after? (s ++ ['>']) resolve tag ≠ none)
    (hclosed : Comment.Closed (s ++ ['>'])) : Scan.Settled resolve (s ++ ['>']) t :=
  { runs_out := hruns
    closed := hclosed
    tag_apart := apart_of_not_mem (by decide)
    comment_apart := apart_of_not_mem (by decide)
    not_suffix := not_suffix_of_not_mem (p := Tag.opening) (by decide) (by decide)
      (List.prefix_refl _) }

/-! ### Plain texts -/

theorem Plain.visits_eq_nil (plain : Plain) : Scan.visits plain.chars resolve 0 = [] :=
  Scan.visits_eq_nil fun _ _ h => plain.no_tag h.1.isInfix

theorem Plain.settled (plain : Plain) (ht : AtMarker t) :
    Scan.Settled resolve plain.chars t :=
  { runs_out := by rw [plain.visits_eq_nil]; exact fun _ h => (by cases h)
    closed := Comment.closed_of_not_isInfix plain.no_comment
    tag_apart := ht.apart (by decide) (by decide)
    comment_apart := ht.apart (by decide) (by decide)
    not_suffix := fun h => plain.no_tag h.isInfix }

/-! ### Comments -/

theorem Note.find?_closing (note : Note) :
    find? Comment.closing note.render 0 = some (Comment.opening ++ note.inside).length := by
  -- The `-->` may share the two dashes of the `<!--`, so the search is split after `<!`.
  have hlate : find? Comment.closing note.render 0 = find? Comment.closing note.render 2 := rfl
  have hsplit : note.render =
      ['<', '!'] ++ (('-' :: '-' :: note.inside) ++ Comment.closing) := rfl
  have hinside : find? Comment.closing (('-' :: '-' :: note.inside) ++ Comment.closing) 0 =
      some ('-' :: '-' :: note.inside).length :=
    find?_of_not_isInfix note.no_closing (apart_self (r := ['-', '-']) (by decide))
  rw [hlate, hsplit]
  show find? Comment.closing (['<', '!'] ++ _) ['<', '!'].length = _
  rw [find?_append_length, hinside]
  exact congrArg some (by simp [Comment.opening]; omega)

theorem Note.length_render (note : Note) :
    note.render.length = (Comment.opening ++ note.inside).length + Comment.closing.length :=
  List.length_append

theorem Note.occurs_opening (note : Note) : Occurs Comment.opening note.render 0 :=
  (List.prefix_append _ _).trans (List.prefix_append _ _)

theorem Note.visits_eq_nil (note : Note) : Scan.visits note.render resolve 0 = [] := by
  refine Scan.visits_eq_nil fun i _ h => ?_
  obtain ⟨hocc, hout⟩ := Tag.startsAt_iff.1 h
  have hpos : i ≠ 0 := fun h0 => Tag.not_occurs_comment_opening hocc (h0 ▸ note.occurs_opening)
  have hle := hocc.add_length_le (by decide)
  rw [note.length_render] at hle
  have : Comment.closing.length < Tag.opening.length := by decide
  exact hout ⟨0, _, note.occurs_opening, note.find?_closing, by omega, by omega⟩

theorem Note.closed (note : Note) : Comment.Closed note.render := by
  intro c hc
  have hle := hc.add_length_le (by decide)
  rw [note.length_render] at hle
  have : Comment.closing.length < Comment.opening.length := by decide
  exact ⟨_, by omega, occurs_of_find?_eq_some note.find?_closing⟩

theorem Note.settled (note : Note) : Scan.Settled resolve note.render t := by
  have hlast : note.render = Comment.opening ++ note.inside ++ ['-', '-'] ++ ['>'] := by
    rw [List.append_assoc _ ['-', '-']]
    rfl
  have hclosed := note.closed
  have hvisits : Scan.visits note.render resolve 0 = [] := note.visits_eq_nil
  rw [hlast] at hclosed hvisits ⊢
  exact .of_angle (by rw [hvisits]; exact fun _ h => (by cases h)) hclosed

/-! ### Fillers -/

theorem Script.moved_zero (script : Script) : script.moved 0 = script := by
  unfold Script.moved
  rw [Int.natCast_zero, Int.add_zero]

theorem Script.moved_moved (m n : Nat) (script : Script) :
    (script.moved m).moved n = script.moved (n + m) := by
  unfold Script.moved
  rw [Int.add_assoc, ← Int.natCast_add, Nat.add_comm m]

/-- A text that is settled and has no tag only moves the scripts after it. -/
theorem Scan.scripts_append_of_visits_eq_nil (h : Scan.Settled resolve s t)
    (hs : Scan.visits s resolve 0 = []) :
    Scan.scripts (Scan.passes (s ++ t) resolve {}) =
      (Scan.scripts (Scan.passes t resolve {})).map (Script.moved (Utf8.size s)) := by
  rw [Scan.scripts_append h, Scan.scripts_passes s, hs]
  rfl

theorem atMarker_renderNotes (notes : List (Note × Plain)) (ht : AtMarker t) :
    AtMarker (renderNotes notes ++ t) := by
  cases notes with
  | nil => exact ht
  | cons part notes => exact Or.inr ⟨_, rfl⟩

theorem scripts_renderNotes_append (notes : List (Note × Plain)) (ht : AtMarker t) :
    Scan.scripts (Scan.passes (renderNotes notes ++ t) resolve {}) =
      (Scan.scripts (Scan.passes t resolve {})).map
        (Script.moved (Utf8.size (renderNotes notes))) := by
  induction notes with
  | nil =>
    show _ = List.map (Script.moved 0) _
    rw [funext Script.moved_zero, List.map_id']
    rfl
  | cons part notes ih =>
    obtain ⟨note, plain⟩ := part
    have hsplit : renderNotes ((note, plain) :: notes) =
        note.render ++ (plain.chars ++ renderNotes notes) :=
      List.append_assoc _ _ _
    rw [hsplit, List.append_assoc, Scan.scripts_append_of_visits_eq_nil note.settled
      note.visits_eq_nil, List.append_assoc, Scan.scripts_append_of_visits_eq_nil
      (plain.settled (atMarker_renderNotes notes ht)) plain.visits_eq_nil, ih, List.map_map,
      List.map_map]
    refine congrArg (List.map · _) (funext fun script => ?_)
    simp only [Function.comp, Script.moved_moved, Utf8.size_append]

/-- A filler gives no script and moves on those after it. -/
theorem Filler.scripts_append (filler : Filler) (ht : AtMarker t) :
    Scan.scripts (Scan.passes (filler.render ++ t) resolve {}) =
      (Scan.scripts (Scan.passes t resolve {})).map (Script.moved (Utf8.size filler.render)) := by
  rw [Filler.render, List.append_assoc, Scan.scripts_append_of_visits_eq_nil
    (filler.first.settled (atMarker_renderNotes filler.rest ht)) filler.first.visits_eq_nil,
    scripts_renderNotes_append filler.rest ht, List.map_map]
  refine congrArg (List.map · _) (funext fun script => ?_)
  simp only [Function.comp, Script.moved_moved, Utf8.size_append]

/-! ### Attributes -/

theorem Attribute.language_render (attr : Attribute) : Tag.language attr.render = attr.token := by
  cases attr with
  | none => rfl
  | lang quote token ne_nil no_quote => exact Tag.language_lang_quoted quote.char_eq ne_nil no_quote

/-- The quotes around a value hide every angle in it. -/
theorem Attribute.closingAngleFrom?_render (attr : Attribute) :
    Tag.closingAngleFrom? .none i (attr.render ++ '>' :: s) = some (i + attr.render.length) := by
  cases attr with
  | none => rfl
  | lang quote token ne_nil no_quote =>
    have hsplit :
        [' ', 'l', 'a', 'n', 'g', '='] ++ [quote.char] ++ token ++ [quote.char] ++ '>' :: s =
          [' ', 'l', 'a', 'n', 'g', '=', quote.char] ++ (token ++ quote.char :: '>' :: s) := by
      cases quote <;> simp
    have hopen : ∀ u, Tag.closingAngleFrom? .none i
        ([' ', 'l', 'a', 'n', 'g', '=', quote.char] ++ u) =
        Tag.closingAngleFrom? (some quote.char) (i + 7) u := by
      cases quote <;> exact fun _ => rfl
    have hlength :
        ([' ', 'l', 'a', 'n', 'g', '='] ++ [quote.char] ++ token ++ [quote.char]).length =
          7 + token.length + 1 := by
      simp only [List.length_append, List.length_cons, List.length_nil]
    rw [Attribute.render, hsplit, hopen, Tag.closingAngleFrom?_quoted no_quote, hlength,
      Tag.closingAngleFrom?, if_pos rfl, Nat.add_assoc, Nat.add_assoc, Nat.add_assoc]

theorem Attribute.no_comment_render (attr : Attribute) :
    ¬ Comment.opening <:+: attr.render := by
  cases attr with
  | none => exact (by decide)
  | lang quote token _ _ no_comment =>
    have hquote : quote.char ∉ Comment.opening := by cases quote <;> decide
    have hname : ¬ Comment.opening <:+: [' ', 'l', 'a', 'n', 'g', '='] ++ [quote.char] := by
      cases quote <;> decide
    have hlast : ¬ Comment.opening <:+: [quote.char] := by cases quote <;> decide
    have hvalue := not_isInfix_append (apart_of_not_mem hquote) hname no_comment
    exact not_isInfix_append
      (apart_cons_of_not_mem fun h => hquote (List.mem_of_mem_tail h)) hvalue hlast

/-! ### Blocks -/

namespace Block

variable (block : Block resolve)

theorem head_eq : block.head = Tag.opening ++ (block.lang.render ++ ['>']) :=
  List.append_assoc _ _ _

theorem length_head : block.head.length = Tag.opening.length + block.lang.render.length + 1 := by
  rw [head_eq, List.length_append, List.length_append, Nat.add_assoc]
  rfl

theorem render_eq_head : block.render = block.head ++ (block.body ++ bodyEnd) :=
  List.append_assoc _ _ _

theorem render_eq_opening : block.render =
    Tag.opening ++ (block.lang.render ++ '>' :: (block.body ++ bodyEnd)) := by
  rw [render_eq_head, head_eq, List.append_assoc, List.append_assoc]
  rfl

theorem no_comment_render : ¬ Comment.opening <:+: block.render := by
  have hattr : ¬ Comment.opening <:+: Tag.opening ++ block.lang.render :=
    not_isInfix_append (apart_of_not_mem (s := ['<', 's', 'c', 'r', 'i', 'p']) (by decide))
      (by decide) block.lang.no_comment_render
  have hhead : ¬ Comment.opening <:+: block.head :=
    not_isInfix_append (apart_cons_of_not_mem (by decide)) hattr (by decide)
  have hbody : ¬ Comment.opening <:+: block.head ++ block.body :=
    not_isInfix_append (apart_of_not_mem (by decide)) hhead block.no_comment
  exact not_isInfix_append (apart_cons_of_not_mem (by decide)) hbody (by decide)

theorem startFrom?_render : Tag.startFrom? block.render 0 = some 0 := by
  have hocc : Occurs Tag.opening block.render 0 := by
    rw [render_eq_opening]
    exact List.prefix_append _ _
  refine Tag.startFrom?_eq_iff.2 ⟨Nat.le_refl 0, Tag.startsAt_iff.2 ⟨hocc, ?_⟩, fun j _ hj =>
    absurd hj (Nat.not_lt_zero j)⟩
  rintro ⟨c, -, hc, -⟩
  exact block.no_comment_render hc.isInfix

theorem nameEndsAt_render : Tag.nameEndsAt block.render (0 + Tag.opening.length) = true := by
  rw [render_eq_opening]
  cases block.lang <;> rfl

theorem closingAngle?_render : Tag.closingAngle? block.render (0 + Tag.opening.length) =
    some (Tag.opening.length + block.lang.render.length) := by
  rw [render_eq_opening, Nat.zero_add]
  show Tag.closingAngle? _ (Tag.opening.length + 0) = _
  rw [Tag.closingAngle?_append_add, Tag.closingAngle?, List.drop_zero,
    Attribute.closingAngleFrom?_render, Nat.zero_add]
  rfl

theorem token_render : Tag.token block.render 0
    (Tag.opening.length + block.lang.render.length) = block.lang.token := by
  rw [Tag.token, Nat.zero_add, render_eq_opening, slice_append_append, Attribute.language_render]

theorem find?_bodyEnd : find? bodyEnd block.render block.head.length =
    some (block.head.length + block.body.length) := by
  have hbody : find? bodyEnd (block.body ++ bodyEnd) 0 = some block.body.length :=
    find?_of_not_isInfix block.no_end
      (apart_self (r := ['<', '/', 's', 'c', 'r', 'i', 'p', 't']) (by decide))
  rw [render_eq_head, find?_append_length, hbody]
  rfl

theorem fate_of_rejected (h : (resolve block.lang.token).type? = none) :
    Scan.fate block.render resolve 0 =
      .dropped block.lang.token (Tag.opening.length + block.lang.render.length) := by
  have hfate : Scan.HasFate block.render resolve 0 _ :=
    .dropped block.nameEndsAt_render block.closingAngle?_render (by rw [token_render, h])
  rw [hfate.eq, token_render]

theorem fate_of_accepted {found : SourceType} (h : (resolve block.lang.token).type? = some found) :
    Scan.fate block.render resolve 0 =
      .block block.lang.token found (Tag.opening.length + block.lang.render.length)
        (block.head.length + block.body.length) := by
  have hstop := block.find?_bodyEnd
  rw [length_head] at hstop
  have hfate : Scan.HasFate block.render resolve 0 _ :=
    .block block.nameEndsAt_render block.closingAngle?_render (by rw [token_render, h]) hstop
  rw [hfate.eq, token_render, length_head]

/-- The scan of a block comes to its tag and goes on to its end without another one. -/
theorem exists_after? : ∃ next, Scan.after? block.render resolve 0 = some next ∧
    ∀ i, next ≤ i → ¬ Tag.StartsAt block.render i := by
  rcases h : (resolve block.lang.token).type? with _ | found
  · have hrest : ¬ Tag.opening <:+: block.body ++ bodyEnd :=
      not_isInfix_append (apart_cons_of_not_mem (by decide)) (block.no_tag h) (by decide)
    refine ⟨block.head.length, ?_, fun i hi hs => ?_⟩
    · rw [Scan.after?, fate_of_rejected block h, length_head]
      rfl
    · obtain ⟨j, rfl⟩ := Nat.exists_eq_add_of_le hi
      have hocc := hs.1
      rw [render_eq_head, occurs_append_add] at hocc
      exact hrest hocc.isInfix
  · refine ⟨block.render.length, ?_, fun i hi hs => ?_⟩
    · rw [Scan.after?, fate_of_accepted block h, render_eq_head, List.length_append,
        List.length_append, ← Nat.add_assoc]
      rfl
    · have := hs.1.add_length_le (by decide)
      have : 0 < Tag.opening.length := by decide
      omega

theorem visits_render : Scan.visits block.render resolve 0 = [0] := by
  obtain ⟨next, hnext, hlast⟩ := block.exists_after?
  rw [Scan.visits_of_some block.startFrom?_render, hnext]
  show 0 :: Scan.visits block.render resolve next = [0]
  rw [Scan.visits_eq_nil hlast]

theorem settled : Scan.Settled resolve block.render t := by
  obtain ⟨next, hnext, -⟩ := block.exists_after?
  have hruns : ∀ tag ∈ Scan.visits block.render resolve 0,
      Scan.after? block.render resolve tag ≠ none := by
    intro tag htag
    rw [visits_render] at htag
    rw [List.mem_singleton.1 htag, hnext]
    exact Option.some_ne_none next
  have hclosed := Comment.closed_of_not_isInfix block.no_comment_render
  have hlast : block.render =
      block.head ++ block.body ++ ['<', '/', 's', 'c', 'r', 'i', 'p', 't'] ++ ['>'] := by
    rw [List.append_assoc _ ['<', '/', 's', 'c', 'r', 'i', 'p', 't']]
    rfl
  rw [hlast] at hruns hclosed ⊢
  exact .of_angle hruns hclosed

theorem scriptAt_render : Scan.scriptAt block.render resolve 0 = block.script? [] := by
  unfold Scan.scriptAt script?
  rcases h : (resolve block.lang.token).type? with _ | found
  · rw [fate_of_rejected block h]
    rfl
  · have hslice : slice block.render block.head.length
        (block.head.length + block.body.length) = block.body := by
      rw [render_eq_head, slice_append_append]
    have htake : block.render.take block.head.length = block.head := by
      rw [render_eq_head, List.take_append_length]
    rw [fate_of_accepted block h]
    simp only [Scan.Fate.script?, ← length_head, Scan.typeFor_eq]
    rw [htake, hslice]
    rfl

/-- A block gives its script and moves on those after it. -/
theorem scripts_append : Scan.scripts (Scan.passes (block.render ++ t) resolve {}) =
    (block.script? []).toList ++
      (Scan.scripts (Scan.passes t resolve {})).map (Script.moved (Utf8.size block.render)) := by
  rw [Scan.scripts_append block.settled, Scan.scripts_passes block.render, visits_render,
    List.filterMap_cons, scriptAt_render]
  cases block.script? [] <;> rfl

theorem script?_append (before after : List Char) :
    block.script? (before ++ after) =
      (block.script? after).map (Script.moved (Utf8.size before)) := by
  unfold script?
  rw [Option.map_map]
  refine congrArg (Option.map · _) (funext fun found => ?_)
  simp only [Function.comp, Script.moved, List.append_assoc, Utf8.size_append, Int.natCast_add]
  rw [Int.add_comm]

end Block

/-! ### Documents -/

theorem atMarker_renderBlocks (blocks : List (Block resolve × Filler)) :
    AtMarker (renderBlocks blocks) := by
  cases blocks with
  | nil => exact Or.inl rfl
  | cons part blocks => exact Or.inr ⟨_, rfl⟩

theorem scriptsAfter_append (before after : List Char) (blocks : List (Block resolve × Filler)) :
    scriptsAfter (before ++ after) blocks =
      (scriptsAfter after blocks).map (Script.moved (Utf8.size before)) := by
  induction blocks generalizing after with
  | nil => rfl
  | cons part blocks ih =>
    obtain ⟨block, filler⟩ := part
    rw [scriptsAfter, scriptsAfter, List.map_append, block.script?_append, List.append_assoc before,
      List.append_assoc before, ih, Option.toList_map]

/-- Blocks and fillers give the scripts of the blocks. -/
theorem scripts_renderBlocks (blocks : List (Block resolve × Filler)) :
    Scan.scripts (Scan.passes (renderBlocks blocks) resolve {}) = scriptsAfter [] blocks := by
  induction blocks with
  | nil =>
    have hnone : ∀ i, 0 ≤ i → ¬ Tag.StartsAt [] i := fun _ _ h => not_occurs_nil (by decide) h.1
    show Scan.scripts (Scan.passes [] resolve {}) = []
    rw [Scan.scripts_passes, Scan.visits_eq_nil hnone]
    rfl
  | cons part blocks ih =>
    obtain ⟨block, filler⟩ := part
    have hsplit : renderBlocks ((block, filler) :: blocks) =
        block.render ++ (filler.render ++ renderBlocks blocks) :=
      List.append_assoc _ _ _
    rw [hsplit, block.scripts_append, filler.scripts_append (atMarker_renderBlocks blocks), ih,
      ← scriptsAfter_append, ← scriptsAfter_append, ← List.append_assoc, List.append_nil]
    rfl

/-- Parsing undoes rendering: the scripts of a document that was written down are those of its
blocks. -/
theorem parse_render (document : Document resolve) :
    parse (String.ofList document.render) resolve = document.scripts := by
  rw [parse, String.toList_ofList, Document.render,
    document.first.scripts_append (atMarker_renderBlocks document.rest), scripts_renderBlocks,
    ← scriptsAfter_append, List.append_nil]
  rfl

end

/-- A document with a tag in a comment and three blocks: one of an unknown language with an angle
and a tag in its attribute, one of a known language, and one with a tag in its body. -/
def threeBlocks : Document Resolver.known where
  first :=
    { first := ⟨['é'], by decide +kernel, by decide +kernel⟩
      rest :=
        [(⟨" <script> <!-- -".toList, by decide +kernel⟩,
          ⟨[' '], by decide +kernel, by decide +kernel⟩)] }
  rest :=
    [({ lang := .lang .double "><script".toList (by decide +kernel) (by decide +kernel)
          (by decide +kernel)
        body := ['a']
        no_end := by decide +kernel
        no_comment := by decide +kernel
        no_tag := by decide +kernel },
      ⟨⟨"</script>".toList, by decide +kernel, by decide +kernel⟩, []⟩),
     ({ lang := .lang .single "tsx".toList (by decide +kernel) (by decide +kernel)
          (by decide +kernel)
        body := "<b/>".toList
        no_end := by decide +kernel
        no_comment := by decide +kernel
        no_tag := by decide +kernel },
      ⟨⟨[], by decide +kernel, by decide +kernel⟩, []⟩),
     ({ lang := .none
        body := "<script>".toList
        no_end := by decide +kernel
        no_comment := by decide +kernel
        no_tag := by decide +kernel },
      ⟨⟨['\n'], by decide +kernel, by decide +kernel⟩, []⟩)]

theorem parse_render_threeBlocks :
    parse (String.ofList threeBlocks.render) = threeBlocks.scripts ∧
      threeBlocks.scripts.map (·.sourceText) = ["<b/>", "<script>"] :=
  ⟨parse_render threeBlocks, by with_unfolding_all decide⟩

end ScriptBlocks
