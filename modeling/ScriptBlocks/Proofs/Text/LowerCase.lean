import ScriptBlocks.Proofs.Text.Blank
import ScriptBlocks.Text.LowerCase

/-!
# Lower-casing twice

A character is small if lower-casing leaves it alone wherever it stands (`IsSmall`).  Lower-casing
gives small characters only (`isSmall_of_mem_lowerCase`), as no small letter of the table is itself
among its capitals, so it leaves alone what it gives (`lowerCase_lowerCase`) and every part of it
(`lowerCase_eq_self`).  A character that is apart from the small letters of the table is given only
where it stood before (`mem_of_mem_lowerCase`); blanks are such characters, and so a trimmed text
stays trimmed (`IsTrimmed.lowerCase`).
-/

namespace ScriptBlocks.Text

/-! ### Runs of capitals -/

namespace CapitalRun

/-- Whether a code point is that of a capital of the run. -/
def holds (r : CapitalRun) (n : Nat) : Bool :=
  r.first ≤ n && n ≤ r.last && (n - r.first) % r.stride == 0

/-- The code point of the small letter of the capital with code point `n`. -/
def image (r : CapitalRun) (n : Nat) : Nat := r.small + (n - r.first)

/-- Whether all small letters of `r` are before the capitals of `q`, after them, or between them. -/
def misses (r q : CapitalRun) : Bool :=
  Nat.blt (r.small + (r.last - r.first)) q.first || Nat.blt q.last r.small ||
    q.stride == 2 && (r.stride == 2 || r.last == r.first) && (r.small + q.first) % 2 == 1

theorem holds_iff {r : CapitalRun} {n : Nat} :
    r.holds n = true ↔ r.first ≤ n ∧ n ≤ r.last ∧ (n - r.first) % r.stride = 0 := by
  simp [holds, and_assoc]

theorem holds_single_iff {n k small : Nat} : holds ⟨k, k, 1, small⟩ n = true ↔ n = k := by
  rw [holds_iff]
  dsimp only
  omega

theorem holds_image_eq_false {r q : CapitalRun} {n : Nat} (h : r.misses q = true)
    (hn : r.holds n = true) : q.holds (r.image n) = false := by
  obtain ⟨hfirst, hlast, hstride⟩ := holds_iff.1 hn
  rw [← Bool.not_eq_true, holds_iff, image]
  rintro ⟨hqfirst, hqlast, hqstride⟩
  simp only [misses, Bool.or_eq_true, Bool.and_eq_true, Nat.blt_eq, beq_iff_eq] at h
  obtain (hbefore | hafter) | ⟨⟨htwo, hsteps⟩, hodd⟩ := h
  · omega
  · omega
  · have heven : (n - r.first) % 2 = 0 := by
      rcases hsteps with hsteps | hsteps
      · rwa [hsteps] at hstride
      · have : n - r.first = 0 := by omega
        rw [this]
    rw [htwo] at hqstride
    omega

end CapitalRun

/-- The characters that lower-casing changes: the capitals of the table, İ and the capital sigma. -/
def changedRuns : List CapitalRun :=
  ⟨0x130, 0x130, 1, 0x69⟩ :: ⟨0x3A3, 0x3A3, 1, 0x3C3⟩ :: capitalRuns

/-- The code points of the characters that lower-casing puts in, as closed ranges. -/
def smallRanges : List (Nat × Nat) :=
  (0, 0) :: (0x307, 0x307) :: (0x3C2, 0x3C2) ::
    changedRuns.map fun r => (r.small, r.small + (r.last - r.first))

/-- Whether no code point lies in a range of both lists. -/
def rangesApart (l m : List (Nat × Nat)) : Bool :=
  l.all fun r => m.all fun q => Nat.blt r.2 q.1 || Nat.blt q.2 r.1

theorem not_inRanges_of_apart {l m : List (Nat × Nat)} {n : Nat} (h : rangesApart l m = true)
    (hl : inRanges l n = true) : ¬ inRanges m n = true := by
  intro hm
  obtain ⟨r, hr, hrn⟩ := List.any_eq_true.1 hl
  obtain ⟨q, hq, hqn⟩ := List.any_eq_true.1 hm
  have hrq := List.all_eq_true.1 (List.all_eq_true.1 h r hr) q hq
  simp only [Bool.and_eq_true, decide_eq_true_eq, Bool.or_eq_true, Nat.blt_eq] at hrn hqn hrq
  omega

/-- Whether lower-casing leaves a character alone. -/
def IsSmall (c : Char) : Prop := ∀ q ∈ changedRuns, q.holds c.toNat = false

instance (c : Char) : Decidable (IsSmall c) :=
  decidable_of_iff ((changedRuns.all fun q => !q.holds c.toNat) = true) (by simp [IsSmall])

/-- The characters that `lowerChar` names, the one for a number that is no code point, and the
dot. -/
def namedSmall : List Char := ['\x00', '.', 'ς', 'σ', 'i', '\u0307']

set_option maxRecDepth 10000 in
/-- All that is read off the table by evaluation, in one run of the kernel. -/
theorem table_checked :
    (capitalRuns.all fun r => changedRuns.all r.misses) = true ∧
      rangesApart smallRanges ((0x2C, 0x2E) :: blankRanges) = true ∧
      (namedSmall.all fun c => IsSmall c) = true := by
  decide +kernel

theorem capitalRuns_misses_changedRuns :
    (capitalRuns.all fun r => changedRuns.all r.misses) = true :=
  table_checked.1

/-- Lower-casing puts in no blank and none of the characters from the comma to the dot. -/
theorem smallRanges_apart : rangesApart smallRanges ((0x2C, 0x2E) :: blankRanges) = true :=
  table_checked.2.1

theorem isSmall_of_mem_named {c : Char} (h : c ∈ namedSmall) : IsSmall c :=
  of_decide_eq_true (List.all_eq_true.1 table_checked.2.2 c h)

/-! ### Characters -/

section

variable {c d : Char} {n : Nat} {s before after : List Char}

theorem toNat_ofNat (n : Nat) : (Char.ofNat n).toNat = n ∨ (Char.ofNat n).toNat = 0 := by
  by_cases h : n.isValidChar
  · left
    rw [Char.ofNat, dif_pos h]
    rfl
  · right
    rw [Char.ofNat, dif_neg h]
    rfl

theorem isSmall_ofNat (h : ∀ q ∈ changedRuns, q.holds n = false) : IsSmall (Char.ofNat n) := by
  rcases toNat_ofNat n with hn | hn
  · rwa [IsSmall, hn]
  · rw [IsSmall, hn]
    exact isSmall_of_mem_named List.mem_cons_self

theorem smallLetter_cases (c : Char) :
    (∀ r ∈ capitalRuns, r.holds c.toNat = false) ∧ smallLetter c = c ∨
      ∃ r ∈ capitalRuns, r.holds c.toNat = true ∧
        smallLetter c = Char.ofNat (r.image c.toNat) := by
  unfold smallLetter
  split
  · next r hfind =>
    have hholds := List.find?_some (p := fun r : CapitalRun => r.holds c.toNat) hfind
    exact Or.inr ⟨r, List.mem_of_find?_eq_some hfind, hholds, rfl⟩
  · next hfind =>
    refine Or.inl ⟨fun r hr => ?_, rfl⟩
    rw [← Bool.not_eq_true]
    exact List.find?_eq_none.1 hfind r hr

theorem smallLetter_eq_or (c : Char) :
    smallLetter c = c ∨ inRanges smallRanges (smallLetter c).toNat = true := by
  rcases smallLetter_cases c with ⟨-, heq⟩ | ⟨r, hr, hholds, heq⟩
  · exact Or.inl heq
  · right
    have hlast := (CapitalRun.holds_iff.1 hholds).2.1
    rw [heq, inRanges, smallRanges, List.any_eq_true]
    rcases toNat_ofNat (r.image c.toNat) with himage | hzero
    · refine ⟨(r.small, r.small + (r.last - r.first)), ?_, ?_⟩
      · simp only [changedRuns, List.map_cons, List.mem_cons]
        exact Or.inr (Or.inr (Or.inr (Or.inr (Or.inr (List.mem_map_of_mem hr)))))
      · rw [himage, CapitalRun.image]
        simp only [Bool.and_eq_true, decide_eq_true_eq]
        omega
    · exact ⟨(0, 0), List.mem_cons_self, by rw [hzero]; rfl⟩

theorem IsSmall.smallLetter_eq (h : IsSmall c) : smallLetter c = c := by
  rcases smallLetter_cases c with ⟨-, heq⟩ | ⟨r, hr, hholds, -⟩
  · exact heq
  · have hmem : r ∈ changedRuns := by simp [changedRuns, hr]
    rw [h r hmem] at hholds
    cases hholds

theorem isSmall_smallLetter (hsigma : c ≠ 'Σ') (hdotted : c ≠ 'İ') : IsSmall (smallLetter c) := by
  rcases smallLetter_cases c with ⟨hholds, heq⟩ | ⟨r, hr, hholds, heq⟩
  · rw [heq]
    intro q hq
    simp only [changedRuns, List.mem_cons] at hq
    rcases hq with rfl | rfl | hq
    · rw [← Bool.not_eq_true, CapitalRun.holds_single_iff]
      exact fun h => hdotted (Char.toNat_inj.1 h)
    · rw [← Bool.not_eq_true, CapitalRun.holds_single_iff]
      exact fun h => hsigma (Char.toNat_inj.1 h)
    · exact hholds q hq
  · rw [heq]
    apply isSmall_ofNat
    intro q hq
    have hmisses := List.all_eq_true.1 capitalRuns_misses_changedRuns r hr
    exact CapitalRun.holds_image_eq_false (List.all_eq_true.1 hmisses q hq) hholds

theorem isSmall_of_mem_lowerChar (h : d ∈ lowerChar before c after) : IsSmall d := by
  unfold lowerChar at h
  split at h
  · apply isSmall_of_mem_named
    split at h <;> simp_all [namedSmall]
  · split at h
    · apply isSmall_of_mem_named
      simp_all [namedSmall]
    · rw [List.mem_singleton.1 h]
      exact isSmall_smallLetter ‹_› ‹_›

theorem IsSmall.lowerChar_eq (h : IsSmall c) (before after : List Char) :
    lowerChar before c after = [c] := by
  rw [lowerChar, if_neg, if_neg, h.smallLetter_eq]
  · rintro rfl
    exact Bool.noConfusion (h _ List.mem_cons_self)
  · rintro rfl
    exact Bool.noConfusion (h _ (List.mem_cons_of_mem _ List.mem_cons_self))

theorem lowerChar_ne_nil : lowerChar before c after ≠ [] := by
  unfold lowerChar
  split
  · split <;> simp
  · split <;> simp

theorem mem_lowerChar_cases (h : d ∈ lowerChar before c after) :
    d = c ∨ inRanges smallRanges d.toNat = true := by
  have hall : (['ς', 'σ', 'i', '\u0307'].all fun d => inRanges smallRanges d.toNat) = true := by
    decide
  have hspecial {d : Char} (hd : d ∈ ['ς', 'σ', 'i', '\u0307']) :
      inRanges smallRanges d.toNat = true := List.all_eq_true.1 hall d hd
  unfold lowerChar at h
  split at h
  · right
    apply hspecial
    split at h <;> simp_all
  · split at h
    · right
      apply hspecial
      simp_all
    · rw [List.mem_singleton.1 h]
      exact smallLetter_eq_or c

/-- A character comes only from itself if it lies in ranges apart from those of the characters that
lower-casing puts in. -/
theorem eq_of_mem_lowerChar {ranges : List (Nat × Nat)}
    (hapart : rangesApart smallRanges ranges = true) (hd : inRanges ranges d.toNat = true)
    (h : d ∈ lowerChar before c after) : d = c :=
  (mem_lowerChar_cases h).resolve_right fun hsmall => not_inRanges_of_apart hapart hsmall hd

theorem eq_dot_of_lowerChar_eq (h : lowerChar before c after = ['.']) : c = '.' := by
  have hmem : '.' ∈ lowerChar before c after := by
    rw [h]
    exact List.mem_singleton_self '.'
  exact (eq_of_mem_lowerChar smallRanges_apart (by decide) hmem).symm

/-! ### Texts -/

@[simp] theorem lowerCaseAfter_nil (before : List Char) : lowerCaseAfter before [] = [] := rfl

theorem lowerCaseAfter_cons (before : List Char) (c : Char) (s : List Char) :
    lowerCaseAfter before (c :: s) = lowerChar before c s ++ lowerCaseAfter (c :: before) s := rfl

theorem lowerCaseAfter_eq_self (h : ∀ c ∈ s, IsSmall c) : lowerCaseAfter before s = s := by
  induction s generalizing before with
  | nil => rfl
  | cons c s ih =>
    rw [lowerCaseAfter_cons, (h c List.mem_cons_self).lowerChar_eq,
      ih fun d hd => h d (List.mem_cons_of_mem c hd)]
    rfl

theorem isSmall_of_mem_lowerCaseAfter (h : c ∈ lowerCaseAfter before s) : IsSmall c := by
  induction s generalizing before with
  | nil => cases h
  | cons d s ih =>
    rw [lowerCaseAfter_cons, List.mem_append] at h
    rcases h with h | h
    · exact isSmall_of_mem_lowerChar h
    · exact ih h

theorem lowerCase_eq_self (h : ∀ c ∈ s, IsSmall c) : lowerCase s = s := lowerCaseAfter_eq_self h

theorem isSmall_of_mem_lowerCase (h : c ∈ lowerCase s) : IsSmall c :=
  isSmall_of_mem_lowerCaseAfter h

theorem lowerCaseAfter_eq_nil_iff : lowerCaseAfter before s = [] ↔ s = [] := by
  cases s with
  | nil => simp
  | cons c s => simp [lowerCaseAfter_cons, lowerChar_ne_nil]

theorem lowerCase_eq_nil_iff : lowerCase s = [] ↔ s = [] := lowerCaseAfter_eq_nil_iff

/-- Nothing but a dot becomes a dot. -/
theorem lowerCase_eq_dot_iff : lowerCase s = ['.'] ↔ s = ['.'] := by
  constructor
  · intro h
    cases s with
    | nil => cases h
    | cons c s =>
      rw [lowerCase, lowerCaseAfter_cons, List.append_eq_singleton_iff] at h
      rcases h with ⟨hnil, -⟩ | ⟨hc, hs⟩
      · exact absurd hnil lowerChar_ne_nil
      · rw [eq_dot_of_lowerChar_eq hc, lowerCaseAfter_eq_nil_iff.1 hs]
  · rintro rfl
    rfl

/-! ### Characters that come only from themselves -/

theorem exists_lowerChar_of_mem (h : d ∈ lowerCaseAfter before s) :
    ∃ c ∈ s, ∃ before after, d ∈ lowerChar before c after := by
  induction s generalizing before with
  | nil => cases h
  | cons c s ih =>
    rw [lowerCaseAfter_cons, List.mem_append] at h
    rcases h with h | h
    · exact ⟨c, List.mem_cons_self, before, s, h⟩
    · obtain ⟨e, he, hd⟩ := ih h
      exact ⟨e, List.mem_cons_of_mem c he, hd⟩

theorem mem_of_mem_lowerCase {ranges : List (Nat × Nat)}
    (hapart : rangesApart smallRanges ranges = true) (hd : inRanges ranges d.toNat = true)
    (h : d ∈ lowerCase s) : d ∈ s := by
  obtain ⟨c, hc, before, after, hmem⟩ := exists_lowerChar_of_mem h
  rwa [eq_of_mem_lowerChar hapart hd hmem]

/-- The last characters of a text in lower case are those that its last one becomes. -/
theorem exists_lowerCaseAfter_concat (before s : List Char) (c : Char) :
    ∃ front before', lowerCaseAfter before (s ++ [c]) = front ++ lowerChar before' c [] := by
  induction s generalizing before with
  | nil => exact ⟨[], before, by simp [lowerCaseAfter_cons]⟩
  | cons d s ih =>
    obtain ⟨front, before', heq⟩ := ih (d :: before)
    refine ⟨lowerChar before d (s ++ [c]) ++ front, before', ?_⟩
    rw [List.cons_append, lowerCaseAfter_cons, heq, List.append_assoc]

theorem isBlank_of_mem_lowerChar (h : d ∈ lowerChar before c after) (hc : isBlank c = false) :
    isBlank d = false := by
  rw [← Bool.not_eq_true]
  intro hd
  have hd' : inRanges ((0x2C, 0x2E) :: blankRanges) d.toNat = true := by
    rw [inRanges, List.any_cons, Bool.or_eq_true]
    exact Or.inr hd
  rw [eq_of_mem_lowerChar smallRanges_apart hd' h, hc] at hd
  cases hd

/-- Lower-casing puts no blank at an end of a text. -/
theorem IsTrimmed.lowerCase (h : IsTrimmed s) : IsTrimmed (lowerCase s) where
  start := by
    cases s with
    | nil => exact h.start
    | cons c s =>
      intro d hd
      rw [Text.lowerCase, lowerCaseAfter_cons, List.head?_append_of_ne_nil _ lowerChar_ne_nil] at hd
      exact isBlank_of_mem_lowerChar (List.mem_of_head? hd) (startsTrimmed_cons.1 h.start)
  stop := by
    rcases List.eq_nil_or_concat' s with rfl | ⟨s, c, rfl⟩
    · exact h.stop
    · intro d hd
      obtain ⟨front, before', heq⟩ := exists_lowerCaseAfter_concat [] s c
      rw [Text.lowerCase, heq, List.getLast?_append_of_ne_nil _ lowerChar_ne_nil] at hd
      exact isBlank_of_mem_lowerChar (List.mem_of_getLast? hd) (endsTrimmed_concat.1 h.stop)

theorem lowerCase_lowerCase (s : List Char) : lowerCase (lowerCase s) = lowerCase s :=
  lowerCase_eq_self fun _ hc => isSmall_of_mem_lowerCase hc

end

end ScriptBlocks.Text
