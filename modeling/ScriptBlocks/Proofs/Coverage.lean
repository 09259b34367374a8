import ScriptBlocks.Proofs.Offsets

/-!
# Which tags give blocks

A tag gives its block unless one of five things keeps it from that (`Scan.Omitted`): it lies in an
earlier block, or inside a dropped tag, its own token is rejected, it or its body does not end, or
the scan has stopped before it.  These are told from the text, the resolver and the blocks given
before, with no cursor; the main statement is `Scan.givesBlock_iff`.  It rests on
`Scan.mem_visits_iff`: the scan comes to every tag that no earlier one has led it past.
-/

namespace ScriptBlocks

open Text

/-! ### Tags -/

namespace Tag

/-- A script tag: a `<script` that no comment covers, before a blank or the closing angle. -/
def OpensAt (text : List Char) (i : Nat) : Prop :=
  StartsAt text i ∧ (text[i + opening.length]? = some ' ' ∨ text[i + opening.length]? = some '>')

theorem nameEndsAt_iff {text : List Char} {i : Nat} :
    nameEndsAt text i = true ↔ text[i]? = some ' ' ∨ text[i]? = some '>' := by
  unfold nameEndsAt
  rcases text[i]? with _ | c
  · simp
  · simp [endsName, or_comm]

theorem opensAt_iff {text : List Char} {i : Nat} :
    OpensAt text i ↔ StartsAt text i ∧ nameEndsAt text (i + opening.length) = true :=
  and_congr_right fun _ => nameEndsAt_iff.symm

/-- The tag at index `i` is closed at `angle`, and the resolver has no type for its token. -/
def Rejected (text : List Char) (resolve : Resolver) (i angle : Nat) : Prop :=
  closingAngle? text (i + opening.length) = some angle ∧ (resolve (token text i angle)).type? = none

/-- The tag at index `i` is closed at `angle`, and the resolver has this type for its token. -/
def Accepted (text : List Char) (resolve : Resolver) (i angle : Nat) (found : SourceType) : Prop :=
  closingAngle? text (i + opening.length) = some angle ∧
    (resolve (token text i angle)).type? = some found

/-- The body of the tag at index `i` lies between its closing angle and `stop`, where the first
`</script>` from there stands. -/
def HasBody (text : List Char) (i angle stop : Nat) : Prop :=
  closingAngle? text (i + opening.length) = some angle ∧
    find? bodyEnd text (angle + 1) = some stop

/-- The tag at index `i` has no closing angle, or no `</script>` stands after it. -/
def Incomplete (text : List Char) (i : Nat) : Prop :=
  closingAngle? text (i + opening.length) = none ∨
    ∃ angle, closingAngle? text (i + opening.length) = some angle ∧
      find? bodyEnd text (angle + 1) = none

end Tag

namespace Scan

section

variable (text : List Char) (resolve : Resolver) (i : Nat)

/-- The scripts that a scan of the text gives for the tag at index `i`. -/
def scriptsAt : List Script :=
  scripts ((passes text resolve {}).filter (·.tag == i))

/-- The tag gives exactly one script: its body, with the type of its token. -/
def GivesBlock : Prop :=
  ∃ angle stop found, Tag.HasBody text i angle stop ∧ Tag.Accepted text resolve i angle found ∧
    scriptsAt text resolve i =
      [⟨String.ofList (slice text (angle + 1) stop),
        if 'x' ∈ (Tag.token text i angle).toList then found else { found with variant := .standard },
        Utf8.size (text.take (angle + 1)), true⟩]

/-! ### Why a tag gives no block -/

/-- The index lies after the start of an earlier tag that gives a script and before the end of the
`</script>` of that tag. -/
def InsideBlock : Prop :=
  ∃ j angle stop, j < i ∧ scriptsAt text resolve j ≠ [] ∧ Tag.HasBody text j angle stop ∧
    i < stop + bodyEnd.length

/-- The tag is visited, unless the scan stops before it: it lies in no earlier block and not inside
an earlier visited tag whose token is rejected. -/
def Visited (i : Nat) : Prop :=
  Tag.OpensAt text i ∧ ¬ InsideBlock text resolve i ∧
    ∀ j, (h : j < i) → Visited j → ∀ angle, Tag.Rejected text resolve j angle → angle ≤ i
termination_by i

/-- The index lies after the start of an earlier visited tag whose token is rejected and before the
closing angle of that tag. -/
def InsideDropped : Prop :=
  ∃ j angle, j < i ∧ Visited text resolve j ∧ Tag.Rejected text resolve j angle ∧ i < angle

/-- The scan goes no further than the tag: it has no closing angle, or its token is accepted and no
`</script>` stands after it. -/
def StopsAt : Prop :=
  Tag.closingAngle? text (i + Tag.opening.length) = none ∨
    ∃ angle found, Tag.Accepted text resolve i angle found ∧
      find? bodyEnd text (angle + 1) = none

/-- The scan stops at an earlier visited tag. -/
def StoppedBefore : Prop :=
  ∃ j, j < i ∧ Visited text resolve j ∧ StopsAt text resolve j

/-- What keeps a tag from giving a block. -/
inductive Omitted : Prop where
  /-- The tag lies in an earlier block. -/
  | insideBlock (h : InsideBlock text resolve i)
  /-- The tag lies inside an earlier tag that is dropped. -/
  | insideDropped (h : InsideDropped text resolve i)
  /-- The token of the tag is rejected. -/
  | rejected (angle : Nat) (h : Tag.Rejected text resolve i angle)
  /-- The tag or its body does not end. -/
  | incomplete (h : Tag.Incomplete text i)
  /-- The scan stops before the tag. -/
  | stopped (h : StoppedBefore text resolve i)

end

section

variable {text : List Char} {resolve : Resolver} {i j k : Nat}

theorem visited_iff : Visited text resolve i ↔
    Tag.OpensAt text i ∧ ¬ InsideBlock text resolve i ∧ ¬ InsideDropped text resolve i := by
  rw [Visited]
  refine and_congr_right fun _ => and_congr_right fun _ => ?_
  constructor
  · rintro h ⟨j, angle, hji, hj, hr, hlt⟩
    exact absurd (h j hji hj angle hr) (Nat.not_le.2 hlt)
  · intro h j hji hj angle hr
    exact Nat.not_lt.1 fun hlt => h ⟨j, angle, hji, hj, hr, hlt⟩

/-! ### The scripts of one tag -/

theorem scriptsAt_eq (text : List Char) (resolve : Resolver) (i : Nat) : scriptsAt text resolve i =
    if i ∈ visits text resolve 0 then (scriptAt text resolve i).toList else [] := by
  have hnodup : (visits text resolve 0).Nodup :=
    (pairwise_visits text resolve 0).imp Nat.ne_of_lt
  have hpasses : scriptsAt text resolve i = ((visits text resolve 0).filterMap fun tag =>
      if tag == i then scriptAt text resolve tag else none) := by
    unfold scriptsAt scripts
    rw [List.filterMap_filter]
    refine filterMap_passes (fun p tag hp ht => ?_) (counted_start text)
    rw [tag_pass, script?_pass hp ht]
  rw [hpasses, ← List.filterMap_filter, List.filter_beq, hnodup.count, List.filterMap_replicate]
  split <;> split <;> simp_all

theorem mem_visits_of_scriptsAt_ne_nil (h : scriptsAt text resolve i ≠ []) :
    i ∈ visits text resolve 0 ∧ ∃ token found angle stop,
      fate text resolve i = .block token found angle stop := by
  rw [scriptsAt_eq] at h
  split at h
  · next hmem =>
    rcases hs : scriptAt text resolve i with _ | s
    · rw [hs] at h
      exact absurd rfl h
    · obtain ⟨token, found, angle, stop, hfate, -⟩ := exists_fate_of_scriptAt_eq_some hs
      exact ⟨hmem, token, found, angle, stop, hfate⟩
  · exact absurd rfl h

theorem opensAt_of_scriptsAt_ne_nil (h : scriptsAt text resolve i ≠ []) : Tag.OpensAt text i := by
  obtain ⟨hmem, token, found, angle, stop, hfate⟩ := mem_visits_of_scriptsAt_ne_nil h
  refine Tag.opensAt_iff.2 ⟨startsAt_of_mem_visits hmem, ?_⟩
  cases fate_eq_iff.1 hfate with
  | block hname => exact hname

/-! ### Where visited tags lead the scan -/

theorem after?_of_hasBody {angle stop : Nat} (h : scriptsAt text resolve i ≠ [])
    (hb : Tag.HasBody text i angle stop) :
    after? text resolve i = some (stop + bodyEnd.length) := by
  obtain ⟨-, token, found, angle', stop', hfate⟩ := mem_visits_of_scriptsAt_ne_nil h
  cases fate_eq_iff.1 hfate with
  | block hname hangle htype hstop =>
    obtain rfl := Option.some.inj (hangle.symm.trans hb.1)
    obtain rfl := Option.some.inj (hstop.symm.trans hb.2)
    rw [after?, hfate]
    rfl

theorem after?_of_rejected {angle : Nat} (hi : Tag.OpensAt text i)
    (hr : Tag.Rejected text resolve i angle) : after? text resolve i = some (angle + 1) := by
  rw [after?, (HasFate.dropped (Tag.opensAt_iff.1 hi).2 hr.1 hr.2).eq]
  rfl

theorem after?_of_stopsAt (hi : Tag.OpensAt text i) (hs : StopsAt text resolve i) :
    after? text resolve i = none := by
  have hname := (Tag.opensAt_iff.1 hi).2
  rw [after?]
  rcases hs with hangle | ⟨angle, found, ⟨hangle, htype⟩, hstop⟩
  · rw [(HasFate.unterminated hname hangle).eq]
    rfl
  · rw [(HasFate.unclosed hname hangle htype hstop).eq]
    rfl

/-- A tag that lies in no earlier block and not inside a dropped tag is not led past by an earlier
tag of the scan, unless the scan stops there. -/
theorem after?_le_of_not_omitted (hi : Tag.StartsAt text i) (hk : k ∈ visits text resolve 0)
    (hki : k < i) (hblock : ¬ InsideBlock text resolve i)
    (hdropped : ∀ angle, Tag.OpensAt text k → Tag.Rejected text resolve k angle → angle ≤ i)
    (hstop : Tag.OpensAt text k → ¬ StopsAt text resolve k) :
    ∃ next, after? text resolve k = some next ∧ next ≤ i := by
  have hstarts := startsAt_of_mem_visits hk
  have hopens : Tag.nameEndsAt text (k + Tag.opening.length) = true → Tag.OpensAt text k :=
    fun h => Tag.opensAt_iff.2 ⟨hstarts, h⟩
  have hf := hasFate_fate text resolve k
  have hscripts := scriptsAt_eq text resolve k
  rw [if_pos hk, scriptAt] at hscripts
  rw [after?]
  generalize fate text resolve k = f at hf hscripts
  cases hf with
  | lookAlike => exact ⟨_, rfl, hstarts.1.add_length_le_of_lt hi.1 (by decide) hki⟩
  | unterminated hname hangle => exact absurd (Or.inl hangle) (hstop (hopens hname))
  | @dropped angle hname hangle htype =>
    refine ⟨_, rfl, Nat.lt_of_le_of_ne (hdropped angle (hopens hname) ⟨hangle, htype⟩) ?_⟩
    intro heq
    have h1 := Tag.getElem?_closingAngle? hangle
    have h2 : text[i]? = some '<' := hi.1.getElem? (k := 0) (by decide)
    rw [heq, h2] at h1
    cases h1
  | unclosed hname hangle htype hnone =>
    exact absurd (Or.inr ⟨_, _, ⟨hangle, htype⟩, hnone⟩) (hstop (hopens hname))
  | block _ hangle _ hend =>
    refine ⟨_, rfl, Nat.not_lt.1 fun hlt => hblock ⟨k, _, _, hki, ?_, ⟨hangle, hend⟩, hlt⟩⟩
    rw [hscripts]
    exact List.cons_ne_nil _ _

/-! ### The tags visited -/

/-- If the scan stops before a tag, it does so at a tag that it comes to. -/
theorem exists_stop (hearlier : ∀ j, j < i → Tag.OpensAt text j →
      (j ∈ visits text resolve 0 ↔ Visited text resolve j ∧ ¬ StoppedBefore text resolve j))
    (h : StoppedBefore text resolve i) :
    ∃ k ∈ visits text resolve 0, k < i ∧ after? text resolve k = none := by
  obtain ⟨j, hji, hj, hs⟩ := h
  -- Of the visited tags at which the scan would stop, it comes to the first.
  induction j using Nat.strongRecOn with
  | ind j ih =>
    have hopens := (visited_iff.1 hj).1
    by_cases hbefore : StoppedBefore text resolve j
    · obtain ⟨k, hkj, hk, hks⟩ := hbefore
      exact ih k hkj (Nat.lt_trans hkj hji) hk hks
    · exact ⟨j, (hearlier j hji hopens).2 ⟨hj, hbefore⟩, hji, after?_of_stopsAt hopens hs⟩

/-- The scan comes to the tags that are visited and before which it does not stop.  By induction
on the index: what hides a tag or stops the scan before it are earlier tags. -/
theorem mem_visits_iff_visited (hi : Tag.OpensAt text i) : i ∈ visits text resolve 0 ↔
    Visited text resolve i ∧ ¬ StoppedBefore text resolve i := by
  induction i using Nat.strongRecOn with
  | ind i ih =>
    constructor
    · intro hmem
      have hnext := (mem_visits_iff.1 hmem).2.2
      have hstop : ¬ StoppedBefore text resolve i := fun h => by
        obtain ⟨k, hk, hki, hnone⟩ := exists_stop ih h
        obtain ⟨next, hn, -⟩ := hnext k hk hki
        rw [hnone] at hn
        cases hn
      refine ⟨visited_iff.2 ⟨hi, ?_, ?_⟩, hstop⟩
      · rintro ⟨j, angle, stop, hji, hj, hbody, hlt⟩
        obtain ⟨next, hn, hle⟩ := hnext j (mem_visits_of_scriptsAt_ne_nil hj).1 hji
        rw [after?_of_hasBody hj hbody] at hn
        cases hn
        exact absurd hle (Nat.not_le.2 hlt)
      · rintro ⟨j, angle, hji, hj, hr, hlt⟩
        have hopens := (visited_iff.1 hj).1
        have hjmem : j ∈ visits text resolve 0 := (ih j hji hopens).2 ⟨hj, fun ⟨k, hkj, hk⟩ =>
          hstop ⟨k, Nat.lt_trans hkj hji, hk⟩⟩
        obtain ⟨next, hn, hle⟩ := hnext j hjmem hji
        rw [after?_of_rejected hopens hr] at hn
        cases hn
        -- The scan would go on at `angle + 1`, but it has come to `i < angle`.
        omega
    · rintro ⟨hvis, hstop⟩
      obtain ⟨-, hblock, hdropped⟩ := visited_iff.1 hvis
      refine mem_visits_iff.2 ⟨Nat.zero_le i, hi.1, fun k hk hki => ?_⟩
      refine after?_le_of_not_omitted hi.1 hk hki hblock (fun angle hopens hr => ?_)
        fun hopens hs => ?_
      · have hvisk := ((ih k hki hopens).1 hk).1
        exact Nat.not_lt.1 fun hlt => hdropped ⟨k, angle, hki, hvisk, hr, hlt⟩
      · exact hstop ⟨k, hki, ((ih k hki hopens).1 hk).1, hs⟩

/-! ### The tags that give blocks -/

/-- A tag whose body and token are complete and accepted gives its script when it is visited. -/
theorem scriptAt_eq_some {angle stop : Nat} {found : SourceType} (hi : Tag.OpensAt text i)
    (hb : Tag.HasBody text i angle stop) (ha : Tag.Accepted text resolve i angle found) :
    scriptAt text resolve i = some ⟨String.ofList (slice text (angle + 1) stop),
      if 'x' ∈ (Tag.token text i angle).toList then found else { found with variant := .standard },
      Utf8.size (text.take (angle + 1)), true⟩ := by
  rw [scriptAt, (HasFate.block (Tag.opensAt_iff.1 hi).2 ha.1 ha.2 hb.2).eq, ← typeFor_eq]
  rfl

theorem givesBlock_of_not_omitted (hi : Tag.OpensAt text i) (h : ¬ Omitted text resolve i) :
    GivesBlock text resolve i := by
  have hmem : i ∈ visits text resolve 0 := (mem_visits_iff_visited hi).2
    ⟨visited_iff.2 ⟨hi, fun hb => h (.insideBlock hb), fun hd => h (.insideDropped hd)⟩,
      fun hs => h (.stopped hs)⟩
  rcases hangle : Tag.closingAngle? text (i + Tag.opening.length) with _ | angle
  · exact absurd (.incomplete (Or.inl hangle)) h
  · rcases htype : (resolve (Tag.token text i angle)).type? with _ | found
    · exact absurd (.rejected angle ⟨hangle, htype⟩) h
    · rcases hstop : find? bodyEnd text (angle + 1) with _ | stop
      · exact absurd (.incomplete (Or.inr ⟨angle, hangle, hstop⟩)) h
      · refine ⟨angle, stop, found, ⟨hangle, hstop⟩, ⟨hangle, htype⟩, ?_⟩
        rw [scriptsAt_eq, if_pos hmem, scriptAt_eq_some hi ⟨hangle, hstop⟩ ⟨hangle, htype⟩]
        rfl

theorem scriptsAt_eq_nil_of_omitted (hi : Tag.OpensAt text i) (h : Omitted text resolve i) :
    scriptsAt text resolve i = [] := by
  refine Classical.byContradiction fun hne => ?_
  obtain ⟨hmem, token, found, angle, stop, hfate⟩ := mem_visits_of_scriptsAt_ne_nil hne
  obtain ⟨hvis, hstop⟩ := (mem_visits_iff_visited hi).1 hmem
  obtain ⟨-, hblock, hdropped⟩ := visited_iff.1 hvis
  cases fate_eq_iff.1 hfate with
  | block _ hangle htype hend =>
    cases h with
    | insideBlock h => exact hblock h
    | insideDropped h => exact hdropped h
    | rejected angle' h =>
      obtain rfl := Option.some.inj (hangle.symm.trans h.1)
      rw [h.2] at htype
      cases htype
    | incomplete h =>
      rcases h with h | ⟨angle', h, hnone⟩
      · rw [hangle] at h
        cases h
      · obtain rfl := Option.some.inj (hangle.symm.trans h)
        rw [hend] at hnone
        cases hnone
    | stopped h => exact hstop h

/-- No block is lost and none is made up: scripts come from tags only, and a tag gives exactly its
own script unless one of the five reasons keeps it from that; then it gives none. -/
theorem givesBlock_iff (text : List Char) (resolve : Resolver) :
    (∀ i, scriptsAt text resolve i ≠ [] → Tag.OpensAt text i) ∧
      ∀ i, Tag.OpensAt text i →
        (GivesBlock text resolve i ↔ ¬ Omitted text resolve i) ∧
          (Omitted text resolve i → scriptsAt text resolve i = []) := by
  refine ⟨fun i => opensAt_of_scriptsAt_ne_nil, fun i hi => ⟨⟨?_, ?_⟩, ?_⟩⟩
  · rintro ⟨angle, stop, found, -, -, hscripts⟩ h
    rw [scriptsAt_eq_nil_of_omitted hi h] at hscripts
    cases hscripts
  · exact givesBlock_of_not_omitted hi
  · exact scriptsAt_eq_nil_of_omitted hi

end

end Scan

end ScriptBlocks
