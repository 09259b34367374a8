import Mathlib.Data.List.DropRight
import ScriptBlocks.Text.Blank

/-!
# Blanks at the ends of a text

A text is trimmed if it neither starts nor ends with a blank (`IsTrimmed`).  What is left when
blanks are dropped at both ends is the one trimmed text with nothing but blanks around it
(`trim_eq_iff`).
-/

namespace ScriptBlocks.Text

/-- The text holds nothing but blanks. -/
def AllBlank (s : List Char) : Prop := ∀ c ∈ s, isBlank c = true

/-- The text does not start with a blank. -/
def StartsTrimmed (s : List Char) : Prop := ∀ c ∈ s.head?, isBlank c = false

/-- The text does not end with a blank. -/
def EndsTrimmed (s : List Char) : Prop := ∀ c ∈ s.getLast?, isBlank c = false

/-- The text has no blank at either end. -/
structure IsTrimmed (s : List Char) : Prop where
  start : StartsTrimmed s
  stop : EndsTrimmed s

instance (s : List Char) : Decidable (AllBlank s) :=
  decidable_of_iff (s.all isBlank = true) List.all_eq_true

instance (s : List Char) : Decidable (StartsTrimmed s) :=
  decidable_of_iff (s.head?.all (!isBlank ·) = true)
    (by unfold StartsTrimmed; cases s.head? <;> simp)

instance (s : List Char) : Decidable (EndsTrimmed s) :=
  decidable_of_iff (s.getLast?.all (!isBlank ·) = true)
    (by unfold EndsTrimmed; cases s.getLast? <;> simp)

instance (s : List Char) : Decidable (IsTrimmed s) :=
  decidable_of_iff (StartsTrimmed s ∧ EndsTrimmed s)
    ⟨fun h => ⟨h.1, h.2⟩, fun h => ⟨h.start, h.stop⟩⟩

variable {s t w w' : List Char} {c : Char}

theorem AllBlank.append (hs : AllBlank s) (ht : AllBlank t) : AllBlank (s ++ t) :=
  List.forall_mem_append.2 ⟨hs, ht⟩

theorem startsTrimmed_cons : StartsTrimmed (c :: s) ↔ isBlank c = false := by
  simp [StartsTrimmed]

theorem endsTrimmed_concat : EndsTrimmed (s ++ [c]) ↔ isBlank c = false := by
  simp [EndsTrimmed]

theorem StartsTrimmed.of_isPrefix (h : StartsTrimmed s) (ht : t <+: s) : StartsTrimmed t := by
  obtain ⟨u, rfl⟩ := ht
  cases t with
  | nil => simp [StartsTrimmed]
  | cons c t => exact startsTrimmed_cons.2 (startsTrimmed_cons.1 h)

theorem EndsTrimmed.of_isSuffix (h : EndsTrimmed s) (ht : t <:+ s) : EndsTrimmed t := by
  obtain ⟨u, rfl⟩ := ht
  rcases List.eq_nil_or_concat' t with rfl | ⟨t, c, rfl⟩
  · simp [EndsTrimmed]
  · rw [← List.append_assoc, endsTrimmed_concat] at h
    exact endsTrimmed_concat.2 h

/-! ### The start -/

theorem trimStart_cons (h : isBlank c = false) : trimStart (c :: s) = c :: s := by
  unfold trimStart
  rw [List.dropWhile_cons_of_neg (by rw [h]; exact Bool.false_ne_true)]

theorem StartsTrimmed.trimStart_eq (h : StartsTrimmed s) : trimStart s = s := by
  cases s with
  | nil => rfl
  | cons c s => exact trimStart_cons (startsTrimmed_cons.1 h)

theorem AllBlank.trimStart_append (h : AllBlank w) (s : List Char) :
    trimStart (w ++ s) = trimStart s :=
  List.dropWhile_append_of_pos h

theorem AllBlank.trimStart_eq (h : AllBlank s) : trimStart s = [] :=
  List.dropWhile_eq_nil_iff.2 h

theorem exists_append_trimStart (s : List Char) : ∃ w, AllBlank w ∧ s = w ++ trimStart s :=
  ⟨s.takeWhile isBlank, fun _ => List.mem_takeWhile_imp, (List.takeWhile_append_dropWhile).symm⟩

theorem startsTrimmed_trimStart (s : List Char) : StartsTrimmed (trimStart s) := by
  intro c hc
  have := List.head?_dropWhile_not isBlank s
  rw [Option.mem_def, trimStart] at hc
  simpa [hc] using this

/-- A character that is no blank keeps the blanks after it. -/
theorem trimStart_append_cons (h : isBlank c = false) (s t : List Char) :
    trimStart (s ++ c :: t) = trimStart s ++ c :: t := by
  induction s with
  | nil => exact trimStart_cons h
  | cons d s ih =>
    simp only [trimStart, List.cons_append, List.dropWhile_cons] at ih ⊢
    split
    · exact ih
    · rfl

/-! ### The end -/

theorem trimEnd_eq_reverse (s : List Char) : trimEnd s = (trimStart s.reverse).reverse := rfl

theorem trimEnd_concat (h : isBlank c = false) : trimEnd (s ++ [c]) = s ++ [c] := by
  unfold trimEnd
  rw [List.reverse_append, List.reverse_singleton, List.singleton_append,
    List.dropWhile_cons_of_neg (by rw [h]; exact Bool.false_ne_true), List.reverse_cons,
    List.reverse_reverse]

theorem EndsTrimmed.startsTrimmed_reverse (h : EndsTrimmed s) : StartsTrimmed s.reverse := by
  intro c hc
  exact h c (by rwa [List.head?_reverse] at hc)

theorem EndsTrimmed.trimEnd_eq (h : EndsTrimmed s) : trimEnd s = s := by
  rw [trimEnd_eq_reverse, h.startsTrimmed_reverse.trimStart_eq, List.reverse_reverse]

theorem AllBlank.trimEnd_append (h : AllBlank w) (s : List Char) :
    trimEnd (s ++ w) = trimEnd s := by
  have hw : AllBlank w.reverse := fun c hc => h c (List.mem_reverse.1 hc)
  rw [trimEnd_eq_reverse, List.reverse_append, hw.trimStart_append, trimEnd_eq_reverse]

theorem exists_trimEnd_append (s : List Char) : ∃ w, AllBlank w ∧ s = trimEnd s ++ w :=
  ⟨s.rtakeWhile isBlank, fun _ => List.mem_rtakeWhile_imp, List.rdropWhile_append_rtakeWhile.symm⟩

theorem trimEnd_isPrefix (s : List Char) : trimEnd s <+: s := List.rdropWhile_prefix isBlank s

theorem endsTrimmed_trimEnd (s : List Char) : EndsTrimmed (trimEnd s) := by
  intro c hc
  rw [trimEnd_eq_reverse, List.getLast?_reverse] at hc
  exact startsTrimmed_trimStart _ c hc

theorem trimEnd_append_cons (h : isBlank c = false) (s t : List Char) :
    trimEnd (s ++ c :: t) = s ++ c :: trimEnd t := by
  rw [trimEnd_eq_reverse, List.reverse_append, List.reverse_cons, List.append_assoc,
    List.singleton_append, trimStart_append_cons h, List.reverse_append, List.reverse_cons,
    List.reverse_reverse, trimEnd_eq_reverse, List.append_assoc, List.singleton_append]

/-! ### Both ends -/

theorem IsTrimmed.trim_eq (h : IsTrimmed s) : trim s = s := by
  rw [trim, h.start.trimStart_eq, h.stop.trimEnd_eq]

theorem isTrimmed_trim (s : List Char) : IsTrimmed (trim s) where
  start := (startsTrimmed_trimStart s).of_isPrefix (trimEnd_isPrefix _)
  stop := endsTrimmed_trimEnd _

/-- Trimming finds the trimmed text with nothing but blanks around it. -/
theorem trim_eq_iff :
    trim s = t ↔ IsTrimmed t ∧ ∃ w w', AllBlank w ∧ AllBlank w' ∧ s = w ++ t ++ w' := by
  constructor
  · rintro rfl
    obtain ⟨w, hw, hs⟩ := exists_append_trimStart s
    obtain ⟨w', hw', ht⟩ := exists_trimEnd_append (trimStart s)
    refine ⟨isTrimmed_trim s, w, w', hw, hw', ?_⟩
    rw [List.append_assoc, trim, ← ht, ← hs]
  · rintro ⟨ht, w, w', hw, hw', rfl⟩
    rw [List.append_assoc, trim, hw.trimStart_append]
    cases t with
    | nil =>
      rw [List.nil_append, ← List.append_nil w', hw'.trimStart_append]
      rfl
    | cons c t =>
      have hc := startsTrimmed_cons.1 ht.start
      rw [List.cons_append, trimStart_cons hc, ← List.cons_append, hw'.trimEnd_append,
        ht.stop.trimEnd_eq]

theorem trim_subset (s : List Char) : trim s ⊆ s :=
  List.Subset.trans (trimEnd_isPrefix _).subset (List.dropWhile_suffix _).subset

/-- The ends can be trimmed in either order. -/
theorem trimStart_trimEnd (s : List Char) : trimStart (trimEnd s) = trimEnd (trimStart s) := by
  obtain ⟨w', hw', hs⟩ := exists_trimEnd_append s
  obtain ⟨w, hw, ht⟩ := exists_append_trimStart (trimEnd s)
  have htrimmed : IsTrimmed (trimStart (trimEnd s)) :=
    ⟨startsTrimmed_trimStart _, (endsTrimmed_trimEnd s).of_isSuffix (List.dropWhile_suffix _)⟩
  exact (trim_eq_iff.2 ⟨htrimmed, w, w', hw, hw', by rw [← ht, ← hs]⟩).symm

theorem trim_append_cons (h : isBlank c = false) (s t : List Char) :
    trim (s ++ c :: t) = trimStart s ++ c :: trimEnd t := by
  rw [trim, trimStart_append_cons h, trimEnd_append_cons h]

/-- Blanks around a text do not matter. -/
theorem trim_append_append (hw : AllBlank w) (hw' : AllBlank w') (s : List Char) :
    trim (w ++ s ++ w') = trim s := by
  obtain ⟨ht, u, u', hu, hu', hs⟩ := trim_eq_iff.1 (rfl : trim s = trim s)
  refine trim_eq_iff.2 ⟨ht, w ++ u, u' ++ w', hw.append hu, hu'.append hw', ?_⟩
  conv_lhs => rw [hs]
  simp only [List.append_assoc]

theorem AllBlank.trim_append (hw : AllBlank w) (s : List Char) : trim (s ++ w) = trim s :=
  trim_append_append (w := []) (List.forall_mem_nil _) hw s

theorem trim_trimEnd (s : List Char) : trim (trimEnd s) = trim s := by
  obtain ⟨w, hw, hs⟩ := exists_trimEnd_append s
  conv_rhs => rw [hs, hw.trim_append]

end ScriptBlocks.Text
