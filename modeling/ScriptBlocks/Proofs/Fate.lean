import ScriptBlocks.Proofs.Comment
import ScriptBlocks.Scan

/-!
# The tags that a scan visits

What becomes of a tag, its `Scan.Fate`, depends on the text and the resolver alone, and so does
the index at which the scan goes on (`Scan.after?`); the bytes that a scan has counted have no part
in it (`Scan.visit_eq`).  `Scan.visits` lists the tags that a scan comes to.  They are the tags
that no earlier visited tag has led past (`Scan.mem_visits_iff`).
-/

namespace ScriptBlocks

open Text

/-- The language token of the tag at index `tag` whose closing angle is at `angle`. -/
def Tag.token (text : List Char) (tag angle : Nat) : String :=
  language (slice text (tag + opening.length) angle)

namespace Scan

/-- What becomes of a tag, told by indices of the text. -/
inductive Fate where
  /-- The name of the tag goes on after `<script`. -/
  | lookAlike
  /-- The tag has no closing angle. -/
  | unterminated
  /-- The language of the tag, which is closed at `angle`, has no type. -/
  | dropped (token : String) (angle : Nat)
  /-- The body after the closing angle does not end. -/
  | unclosed (token : String)
  /-- The tag begins a block whose body lies between its closing angle and `stop`. -/
  | block (token : String) (found : SourceType) (angle stop : Nat)

/-- What becomes of the tag at index `tag`. -/
def fate (text : List Char) (resolve : Resolver) (tag : Nat) : Fate :=
  if Tag.nameEndsAt text (tag + Tag.opening.length) then
    match Tag.closingAngle? text (tag + Tag.opening.length) with
    | none => .unterminated
    | some angle =>
      let token := Tag.token text tag angle
      match (resolve token).type? with
      | none => .dropped token angle
      | some found =>
        match find? bodyEnd text (angle + 1) with
        | none => .unclosed token
        | some stop => .block token found angle stop
  else .lookAlike

/-- The conditions on the text under which a tag has each fate. -/
inductive HasFate (text : List Char) (resolve : Resolver) (tag : Nat) : Fate → Prop where
  | lookAlike (hname : Tag.nameEndsAt text (tag + Tag.opening.length) = false) :
      HasFate text resolve tag .lookAlike
  | unterminated (hname : Tag.nameEndsAt text (tag + Tag.opening.length) = true)
      (hangle : Tag.closingAngle? text (tag + Tag.opening.length) = none) :
      HasFate text resolve tag .unterminated
  | dropped {angle : Nat} (hname : Tag.nameEndsAt text (tag + Tag.opening.length) = true)
      (hangle : Tag.closingAngle? text (tag + Tag.opening.length) = some angle)
      (htype : (resolve (Tag.token text tag angle)).type? = none) :
      HasFate text resolve tag (.dropped (Tag.token text tag angle) angle)
  | unclosed {angle : Nat} {found : SourceType}
      (hname : Tag.nameEndsAt text (tag + Tag.opening.length) = true)
      (hangle : Tag.closingAngle? text (tag + Tag.opening.length) = some angle)
      (htype : (resolve (Tag.token text tag angle)).type? = some found)
      (hstop : find? bodyEnd text (angle + 1) = none) :
      HasFate text resolve tag (.unclosed (Tag.token text tag angle))
  | block {angle stop : Nat} {found : SourceType}
      (hname : Tag.nameEndsAt text (tag + Tag.opening.length) = true)
      (hangle : Tag.closingAngle? text (tag + Tag.opening.length) = some angle)
      (htype : (resolve (Tag.token text tag angle)).type? = some found)
      (hstop : find? bodyEnd text (angle + 1) = some stop) :
      HasFate text resolve tag (.block (Tag.token text tag angle) found angle stop)

section

variable {text : List Char} {resolve : Resolver} {tag : Nat}

theorem hasFate_fate (text : List Char) (resolve : Resolver) (tag : Nat) :
    HasFate text resolve tag (fate text resolve tag) := by
  unfold fate
  split
  · next hname =>
    split
    · next hangle => exact .unterminated hname hangle
    · next angle hangle =>
      simp only
      split
      · next htype => exact .dropped hname hangle htype
      · next found htype =>
        split
        · next hstop => exact .unclosed hname hangle htype hstop
        · next stop hstop => exact .block hname hangle htype hstop
  · next hname => exact .lookAlike (Bool.eq_false_iff.2 hname)

theorem HasFate.eq {f : Fate} (h : HasFate text resolve tag f) : fate text resolve tag = f := by
  unfold fate
  cases h with
  | lookAlike hname => rw [hname]; rfl
  | unterminated hname hangle => rw [if_pos hname, hangle]
  | dropped hname hangle htype => rw [if_pos hname, hangle]; simp only [htype]
  | unclosed hname hangle htype hstop => rw [if_pos hname, hangle]; simp only [htype, hstop]
  | block hname hangle htype hstop => rw [if_pos hname, hangle]; simp only [htype, hstop]

theorem fate_eq_iff {f : Fate} : fate text resolve tag = f ↔ HasFate text resolve tag f :=
  ⟨fun h => h ▸ hasFate_fate text resolve tag, HasFate.eq⟩

end

/-! ### Where the scan goes on -/

/-- The index at which the scan goes on after the tag at index `tag`, unless it stops. -/
def Fate.next? (tag : Nat) : Fate → Option Nat
  | lookAlike => some (tag + Tag.opening.length)
  | unterminated => none
  | dropped _ angle => some (angle + 1)
  | unclosed _ => none
  | block _ _ _ stop => some (stop + bodyEnd.length)

/-- The index at which the scan goes on after the tag at index `tag`, unless it stops. -/
def after? (text : List Char) (resolve : Resolver) (tag : Nat) : Option Nat :=
  (fate text resolve tag).next? tag

/-- The token that the resolver is asked for at a tag, if it is asked. -/
def Fate.asked : Fate → Option String
  | lookAlike => none
  | unterminated => none
  | dropped token _ => some token
  | unclosed token => some token
  | block token _ _ _ => some token

/-- The pass of a scan that comes to the tag from `p`. -/
def Fate.pass (text : List Char) (p : Position) (tag : Nat) : Fate → Pass
  | lookAlike => ⟨tag, none, .lookAlike { p with cursor := tag + Tag.opening.length }⟩
  | unterminated => ⟨tag, none, .unterminated⟩
  | dropped token angle => ⟨tag, some token, .dropped token { p with cursor := angle + 1 }⟩
  | unclosed token => ⟨tag, some token, .unclosed⟩
  | block token found angle stop =>
    let (start, counted) := byteAt text p (angle + 1)
    ⟨tag, some token,
      .block ⟨String.ofList (slice text (angle + 1) stop), typeFor token found, start, true⟩
        { counted with cursor := stop + bodyEnd.length }⟩

/-- A visit goes by the fate of the tag; the position only counts bytes. -/
theorem visit_eq (text : List Char) (resolve : Resolver) (p : Position) (tag : Nat) :
    visit text resolve p tag (tag + Tag.opening.length) =
      (fate text resolve tag).pass text p tag := by
  have h := hasFate_fate text resolve tag
  generalize fate text resolve tag = f at h ⊢
  unfold visit
  cases h with
  | lookAlike hname => rw [hname]; rfl
  | unterminated hname hangle => rw [if_pos hname, hangle]; rfl
  | dropped hname hangle htype =>
    unfold Tag.token at htype
    rw [if_pos hname, hangle]
    simp only [htype]
    rfl
  | unclosed hname hangle htype hstop =>
    unfold Tag.token at htype
    rw [if_pos hname, hangle]
    simp only [htype, body, hstop]
    rfl
  | block hname hangle htype hstop =>
    unfold Tag.token at htype
    rw [if_pos hname, hangle]
    simp only [htype, body, hstop]
    rfl

theorem step_eq (text : List Char) (resolve : Resolver) (p : Position) :
    step text resolve p = (Tag.startFrom? text p.cursor).map fun tag =>
      (fate text resolve tag).pass text p tag := by
  unfold step
  exact congrArg (Option.map · _) (funext fun tag => visit_eq text resolve p tag)

theorem next?_pass (f : Fate) (text : List Char) (p : Position) (tag : Nat) :
    (f.pass text p tag).outcome.next?.map (·.cursor) = f.next? tag := by
  cases f <;> rfl

section

variable {text : List Char} {resolve : Resolver} {tag next pos i k : Nat}

theorem add_length_le_of_after? (h : after? text resolve tag = some next) :
    tag + Tag.opening.length ≤ next := by
  have hf := hasFate_fate text resolve tag
  unfold after? at h
  generalize fate text resolve tag = f at h hf
  cases hf with
  | lookAlike => cases h; exact Nat.le_refl _
  | unterminated => cases h
  | dropped _ hangle =>
    cases h
    exact Nat.le_succ_of_le (Tag.bounds_of_closingAngle? hangle).1
  | unclosed => cases h
  | block _ hangle _ hstop =>
    cases h
    have := (Tag.bounds_of_closingAngle? hangle).1
    have := le_of_find?_eq_some hstop
    omega

theorem after?_le_length (h : after? text resolve tag = some next)
    (htag : tag + Tag.opening.length ≤ text.length) : next ≤ text.length := by
  have hf := hasFate_fate text resolve tag
  unfold after? at h
  generalize fate text resolve tag = f at h hf
  cases hf with
  | lookAlike => cases h; exact htag
  | unterminated => cases h
  | dropped _ hangle =>
    cases h
    exact (Tag.bounds_of_closingAngle? hangle).2
  | unclosed => cases h
  | block _ _ _ hstop =>
    cases h
    exact add_length_le_of_find?_eq_some (by decide) hstop

/-! ### Visits -/

/-- The tags that a scan from index `pos` comes to. -/
def visits (text : List Char) (resolve : Resolver) (pos : Nat) : List Nat :=
  match _ht : Tag.startFrom? text pos with
  | none => []
  | some tag =>
    match _hn : after? text resolve tag with
    | none => [tag]
    | some next => tag :: visits text resolve next
termination_by text.length - pos
decreasing_by
  have := Tag.bounds_of_startFrom? _ht
  have := add_length_le_of_after? _hn
  have : 0 < Tag.opening.length := by decide
  omega

theorem visits_of_none (h : Tag.startFrom? text pos = none) : visits text resolve pos = [] := by
  rw [visits]
  split
  · rfl
  · next ht => rw [h] at ht; cases ht

theorem visits_of_some (h : Tag.startFrom? text pos = some tag) :
    visits text resolve pos =
      tag :: ((after? text resolve tag).map (visits text resolve)).getD [] := by
  rw [visits]
  split
  · next ht => rw [h] at ht; cases ht
  · next tag' ht =>
    rw [h] at ht
    cases ht
    split
    · next hn => rw [hn]; rfl
    · next hn => rw [hn]; rfl

theorem eq_of_visits_eq_cons {later : List Nat} (h : visits text resolve pos = tag :: later) :
    Tag.startFrom? text pos = some tag ∧
      later = ((after? text resolve tag).map (visits text resolve)).getD [] := by
  rcases ht : Tag.startFrom? text pos with _ | tag'
  · rw [visits_of_none ht] at h
    cases h
  · rw [visits_of_some ht] at h
    cases h
    exact ⟨rfl, rfl⟩

/-- After any tag that the scan comes to, the rest of the scan is one from where it goes on. -/
theorem eq_of_visits_eq_append {earlier later : List Nat}
    (h : visits text resolve pos = earlier ++ tag :: later) :
    later = ((after? text resolve tag).map (visits text resolve)).getD [] := by
  induction earlier generalizing pos with
  | nil => exact (eq_of_visits_eq_cons h).2
  | cons first earlier ih =>
    obtain ⟨-, hrest⟩ := eq_of_visits_eq_cons h
    rcases hnext : after? text resolve first with _ | next
    · rw [hnext] at hrest
      exact absurd hrest (by simp)
    · rw [hnext] at hrest
      exact ih hrest.symm

theorem le_of_mem_visits (h : i ∈ visits text resolve pos) : pos ≤ i := by
  fun_induction visits text resolve pos with
  | case1 => cases h
  | case2 pos tag htag =>
    obtain rfl := List.mem_singleton.1 h
    exact (Tag.bounds_of_startFrom? htag).1
  | case3 pos tag htag next hnext ih =>
    have hle := (Tag.bounds_of_startFrom? htag).1
    rcases List.mem_cons.1 h with rfl | h
    · exact hle
    · have := add_length_le_of_after? hnext
      have := ih h
      omega

/-- A scan comes to a tag exactly when it begins before it and goes on before it after each tag
that it comes to earlier. -/
theorem mem_visits_iff : i ∈ visits text resolve pos ↔
    pos ≤ i ∧ Tag.StartsAt text i ∧ ∀ k ∈ visits text resolve pos, k < i →
      ∃ next, after? text resolve k = some next ∧ next ≤ i := by
  fun_induction visits text resolve pos with
  | case1 pos hnone =>
    constructor
    · intro h
      cases h
    · rintro ⟨hpos, hs, -⟩
      exact absurd hs (Tag.startFrom?_eq_iff.1 hnone i hpos)
  | case2 pos tag htag hstop =>
    obtain ⟨hle, hs, hfirst⟩ := Tag.startFrom?_eq_iff.1 htag
    constructor
    · intro h
      obtain rfl := List.mem_singleton.1 h
      refine ⟨hle, hs, fun k hk hki => ?_⟩
      exact absurd (List.mem_singleton.1 hk) (Nat.ne_of_lt hki)
    · rintro ⟨hpos, hi, hlater⟩
      rcases Nat.lt_trichotomy i tag with hlt | rfl | hlt
      · exact absurd hi (hfirst i hpos hlt)
      · exact List.mem_singleton_self i
      · obtain ⟨next, hn, -⟩ := hlater tag (List.mem_singleton_self tag) hlt
        rw [hstop] at hn
        cases hn
  | case3 pos tag htag next hnext ih =>
    obtain ⟨hle, hs, hfirst⟩ := Tag.startFrom?_eq_iff.1 htag
    have hpast : tag < next := Nat.lt_of_lt_of_le (Nat.lt_add_of_pos_right (by decide))
      (add_length_le_of_after? hnext)
    constructor
    · intro h
      rcases List.mem_cons.1 h with rfl | h
      · refine ⟨hle, hs, fun k hk hki => ?_⟩
        rcases List.mem_cons.1 hk with rfl | hk
        · exact absurd hki (Nat.lt_irrefl k)
        · have := le_of_mem_visits hk
          omega
      · obtain ⟨hni, hi, hlater⟩ := ih.1 h
        refine ⟨by omega, hi, fun k hk hki => ?_⟩
        rcases List.mem_cons.1 hk with rfl | hk
        · exact ⟨next, hnext, hni⟩
        · exact hlater k hk hki
    · rintro ⟨hpos, hi, hlater⟩
      rcases Nat.lt_trichotomy i tag with hlt | rfl | hlt
      · exact absurd hi (hfirst i hpos hlt)
      · exact List.mem_cons_self
      · obtain ⟨next', hn, hni⟩ := hlater tag List.mem_cons_self hlt
        rw [hnext] at hn
        cases hn
        exact List.mem_cons_of_mem _
          (ih.2 ⟨hni, hi, fun k hk hki => hlater k (List.mem_cons_of_mem _ hk) hki⟩)

theorem startsAt_of_mem_visits (h : i ∈ visits text resolve pos) : Tag.StartsAt text i :=
  (mem_visits_iff.1 h).2.1

/-- A scan comes to its tags in their order in the text. -/
theorem pairwise_visits (text : List Char) (resolve : Resolver) (pos : Nat) :
    (visits text resolve pos).Pairwise (· < ·) := by
  fun_induction visits text resolve pos with
  | case1 => exact List.Pairwise.nil
  | case2 => exact List.pairwise_singleton _ _
  | case3 pos tag htag next hnext ih =>
    refine List.pairwise_cons.2 ⟨fun i hi => ?_, ih⟩
    have := le_of_mem_visits hi
    have := add_length_le_of_after? hnext
    have : 0 < Tag.opening.length := by decide
    omega

end

end Scan

end ScriptBlocks
