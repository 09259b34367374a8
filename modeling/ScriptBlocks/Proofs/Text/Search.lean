import Mathlib.Data.List.TakeDrop
import Mathlib.Data.List.TakeWhile
import ScriptBlocks.Text.Search

/-!
# What a search finds

`Occurs p s i` says that the pattern `p` stands in the text `s` at index `i`, and
`IsFirst P pos o` that `o` holds the first index from `pos` on with the property `P`, if there is
one.  A search from `pos` holds the first occurrence (`isFirst_find?`), and a search backwards the
last one (`findLast?_eq_some_iff`).  Since a first index is unique (`IsFirst.unique`), a search in
a part of a text is compared with one in the whole by comparing the occurrences alone.  The last
section cuts texts into slices.
-/

namespace ScriptBlocks.Text

/-! ### First indices -/

/-- The option holds the first index from `pos` on with the property, if there is one. -/
def IsFirst (P : Nat → Prop) (pos : Nat) : Option Nat → Prop
  | some i => pos ≤ i ∧ P i ∧ ∀ j, pos ≤ j → j < i → ¬ P j
  | none => ∀ j, pos ≤ j → ¬ P j

section IsFirst

variable {P Q : Nat → Prop} {pos n : Nat} {o o' : Option Nat}

theorem IsFirst.unique (h : IsFirst P pos o) (h' : IsFirst P pos o') : o = o' := by
  rcases o with _ | i <;> rcases o' with _ | i'
  · rfl
  · exact absurd h'.2.1 (h i' h'.1)
  · exact absurd h.2.1 (h' i h.1)
  · rcases Nat.lt_trichotomy i i' with hlt | rfl | hlt
    · exact absurd h.2.1 (h'.2.2 i h.1 hlt)
    · rfl
    · exact absurd h'.2.1 (h.2.2 i' h'.1 hlt)

/-- Indices without the property may be passed over before the search. -/
theorem IsFirst.of_le (hn : pos ≤ n) (hP : ∀ j, pos ≤ j → j < n → ¬ P j) (h : IsFirst P n o) :
    IsFirst P pos o := by
  rcases o with _ | i
  · intro j hj
    rcases Nat.lt_or_ge j n with hlt | hge
    · exact hP j hj hlt
    · exact h j hge
  · refine ⟨Nat.le_trans hn h.1, h.2.1, fun j hj hji => ?_⟩
    rcases Nat.lt_or_ge j n with hlt | hge
    · exact hP j hj hlt
    · exact h.2.2 j hge hji

/-- A first index depends on the property up to that index only. -/
theorem IsFirst.congr_some {i : Nat} (h : IsFirst P pos (some i)) (hPQ : ∀ j, j ≤ i → (P j ↔ Q j)) :
    IsFirst Q pos (some i) :=
  ⟨h.1, (hPQ i (Nat.le_refl i)).1 h.2.1, fun j hj hji hQ =>
    h.2.2 j hj hji ((hPQ j (Nat.le_of_lt hji)).2 hQ)⟩

theorem IsFirst.add (h : IsFirst P pos o) (hPQ : ∀ j, Q (n + j) ↔ P j) :
    IsFirst Q (n + pos) (o.map (n + ·)) := by
  rcases o with _ | i
  · intro j hj hQ
    obtain ⟨k, rfl⟩ := Nat.exists_eq_add_of_le (Nat.le_trans (Nat.le_add_right n pos) hj)
    exact h k (Nat.le_of_add_le_add_left hj) ((hPQ k).1 hQ)
  · refine ⟨Nat.add_le_add_left h.1 n, (hPQ i).2 h.2.1, fun j hj hji hQ => ?_⟩
    obtain ⟨k, rfl⟩ := Nat.exists_eq_add_of_le (Nat.le_trans (Nat.le_add_right n pos) hj)
    exact h.2.2 k (Nat.le_of_add_le_add_left hj) (Nat.lt_of_add_lt_add_left hji) ((hPQ k).1 hQ)

theorem IsFirst.exists_add (h : IsFirst P (n + pos) o) :
    ∃ o', o = o'.map (n + ·) ∧ IsFirst (fun j => P (n + j)) pos o' := by
  rcases o with _ | i
  · exact ⟨none, rfl, fun j hj => h (n + j) (Nat.add_le_add_left hj n)⟩
  · obtain ⟨k, rfl⟩ := Nat.exists_eq_add_of_le (Nat.le_trans (Nat.le_add_right n pos) h.1)
    exact ⟨some k, rfl, Nat.le_of_add_le_add_left h.1, h.2.1, fun j hj hjk =>
      h.2.2 (n + j) (Nat.add_le_add_left hj n) (Nat.add_lt_add_left hjk n)⟩

end IsFirst

/-! ### Occurrences -/

/-- The pattern stands in the text at the index. -/
def Occurs (p s : List Char) (i : Nat) : Prop := p <+: s.drop i

instance (p s : List Char) (i : Nat) : Decidable (Occurs p s i) :=
  inferInstanceAs (Decidable (p <+: s.drop i))

section Occurs

variable {p q s t : List Char} {c : Char} {i j k : Nat}

theorem occurs_iff_getElem? : Occurs p s i ↔ ∀ k, k < p.length → s[i + k]? = p[k]? := by
  unfold Occurs
  rw [List.prefix_iff_getElem?]
  simp only [List.getElem?_drop]
  constructor
  · intro h k hk
    rw [h k hk, List.getElem?_eq_getElem hk]
  · intro h k hk
    rw [h k hk, List.getElem?_eq_getElem hk]

theorem Occurs.getElem? (h : Occurs p s i) (hk : k < p.length) : s[i + k]? = p[k]? :=
  occurs_iff_getElem?.1 h k hk

theorem Occurs.add_length_le (h : Occurs p s i) (hp : p ≠ []) : i + p.length ≤ s.length := by
  have hl := h.length_le
  have := List.length_pos_iff.2 hp
  simp only [List.length_drop] at hl
  omega

theorem Occurs.suffix (h : Occurs p s i) (hi : i + p.length = s.length) : p <:+ s := by
  have heq : p = s.drop i := h.eq_of_length (by rw [List.length_drop]; omega)
  exact heq ▸ List.drop_suffix i s

theorem occurs_self : Occurs p (s ++ (p ++ t)) s.length := by
  unfold Occurs
  rw [List.drop_append_length]
  exact List.prefix_append p t

theorem occurs_append_of_le (h : i + p.length ≤ s.length) : Occurs p (s ++ t) i ↔ Occurs p s i := by
  simp only [occurs_iff_getElem?]
  refine forall_congr' fun k => forall_congr' fun hk => ?_
  rw [List.getElem?_append_left (by omega)]

theorem Occurs.append (h : Occurs p s i) : Occurs p (s ++ t) i := by
  unfold Occurs at h ⊢
  rw [List.drop_append]
  exact h.trans (List.prefix_append _ _)

theorem occurs_append_add : Occurs p (s ++ t) (s.length + i) ↔ Occurs p t i := by
  unfold Occurs
  rw [← List.drop_drop, List.drop_append_length]

theorem occurs_take (hp : p ≠ []) :
    Occurs p (s.take j) i ↔ Occurs p s i ∧ i + p.length ≤ j := by
  constructor
  · intro h
    have hl := h.add_length_le hp
    rw [List.length_take] at hl
    refine ⟨?_, by omega⟩
    rw [← List.take_append_drop j s]
    exact h.append
  · rintro ⟨h, hj⟩
    rw [occurs_iff_getElem?]
    intro k hk
    rw [List.getElem?_take_of_lt (by omega)]
    exact h.getElem? hk

/-- Two occurrences do not overlap where the later one begins with a character that the earlier
one does not have after its first. -/
theorem Occurs.add_length_le_of_lt (hq : Occurs q s j) (hp : Occurs (c :: p) s i)
    (hc : c ∉ q.tail) (h : j < i) : j + q.length ≤ i := by
  refine Nat.not_lt.1 fun hlt => hc ?_
  obtain ⟨k, rfl⟩ := Nat.exists_eq_add_of_lt h
  have h1 : s[j + k + 1]? = some c := hp.getElem? (Nat.zero_lt_succ _)
  have h2 : s[j + (k + 1)]? = q[k + 1]? := hq.getElem? (by omega)
  rw [← Nat.add_assoc, h1] at h2
  rw [List.mem_iff_getElem?]
  exact ⟨k, by rw [List.getElem?_tail]; exact h2.symm⟩

/-- An occurrence does not lie in another one that does not have the first character of it. -/
theorem Occurs.add_length_le_of_le (hq : Occurs q s j) (hp : Occurs (c :: p) s i) (hc : c ∉ q)
    (h : j ≤ i) : j + q.length ≤ i := by
  rcases Nat.lt_or_eq_of_le h with hlt | rfl
  · exact hq.add_length_le_of_lt hp (fun hm => hc (List.mem_of_mem_tail hm)) hlt
  · rcases q with _ | ⟨d, q⟩
    · exact Nat.le_refl _
    · have h1 : s[j]? = some c := hp.getElem? (Nat.zero_lt_succ _)
      have h2 : s[j]? = some d := hq.getElem? (Nat.zero_lt_succ _)
      rw [h1] at h2
      cases h2
      exact absurd List.mem_cons_self hc

theorem not_occurs_nil (hp : p ≠ []) : ¬ Occurs p [] i := fun h => by
  have := h.add_length_le hp
  have := List.length_pos_iff.2 hp
  simp only [List.length_nil] at *
  omega

end Occurs

/-! ### The searches -/

theorem findFrom?_eq_map (p s : List Char) (i : Nat) :
    findFrom? p i s = (findFrom? p 0 s).map (i + ·) := by
  induction s generalizing i with
  | nil =>
    simp only [findFrom?]
    split <;> rfl
  | cons c s ih =>
    simp only [findFrom?]
    split
    · rfl
    · rw [ih (i + 1), ih (0 + 1), Option.map_map]
      exact congrArg (Option.map · _) (funext fun j => by simp only [Function.comp]; omega)

theorem isFirst_findFrom? (p s : List Char) : IsFirst (Occurs p s) 0 (findFrom? p 0 s) := by
  induction s with
  | nil =>
    rw [findFrom?]
    rcases p with _ | ⟨d, p⟩
    · exact ⟨Nat.le_refl 0, List.nil_prefix, fun j _ hj => absurd hj (Nat.not_lt_zero j)⟩
    · exact fun j _ => not_occurs_nil (List.cons_ne_nil d p)
  | cons c s ih =>
    rw [findFrom?]
    split
    · next h =>
      exact ⟨Nat.le_refl 0, List.isPrefixOf_iff_prefix.1 h, fun j _ hj =>
        absurd hj (Nat.not_lt_zero j)⟩
    · next h =>
      refine IsFirst.of_le (Nat.zero_le 1) (fun j _ hj hocc => h ?_) ?_
      · obtain rfl : j = 0 := by omega
        exact List.isPrefixOf_iff_prefix.2 hocc
      · rw [findFrom?_eq_map]
        exact ih.add fun j => by rw [Nat.add_comm]; rfl

/-- A search holds the first occurrence from the index on at which it begins. -/
theorem isFirst_find? (p s : List Char) (pos : Nat) : IsFirst (Occurs p s) pos (find? p s pos) := by
  rw [find?, findFrom?_eq_map]
  refine (isFirst_findFrom? p (s.drop pos)).add fun j => ?_
  unfold Occurs
  rw [List.drop_drop]

theorem find?_eq_iff {p s : List Char} {pos : Nat} {o : Option Nat} :
    find? p s pos = o ↔ IsFirst (Occurs p s) pos o :=
  ⟨fun h => h ▸ isFirst_find? p s pos, fun h => (isFirst_find? p s pos).unique h⟩

theorem occurs_of_find?_eq_some {p s : List Char} {pos i : Nat} (h : find? p s pos = some i) :
    Occurs p s i :=
  (find?_eq_iff.1 h).2.1

/-- What a search backwards has met: the last occurrence, or else the best met before. -/
theorem findLastFrom?_cases {p : List Char} (hp : p ≠ []) (s : List Char) (i : Nat)
    (best : Option Nat) :
    (∃ j, Occurs p s j ∧ (∀ k, j < k → ¬ Occurs p s k) ∧
      findLastFrom? p i best s = some (i + j)) ∨
    (∀ j, ¬ Occurs p s j) ∧ findLastFrom? p i best s = best := by
  induction s generalizing i best with
  | nil =>
    refine Or.inr ⟨fun j => not_occurs_nil hp, ?_⟩
    rw [findLastFrom?, if_neg (by simpa using hp)]
  | cons c s ih =>
    rw [findLastFrom?]
    rcases ih (i + 1) (if p.isPrefixOf (c :: s) then some i else best) with
      ⟨j, hj, hlast, he⟩ | ⟨hno, he⟩
    · refine Or.inl ⟨j + 1, hj, fun k hk hocc => ?_, by rw [he]; congr 1; omega⟩
      obtain ⟨k, rfl⟩ : ∃ k', k = k' + 1 := ⟨k - 1, by omega⟩
      exact hlast k (by omega) hocc
    · have hno' : ∀ k, 0 < k → ¬ Occurs p (c :: s) k := fun k hk hocc => by
        obtain ⟨k, rfl⟩ : ∃ k', k = k' + 1 := ⟨k - 1, by omega⟩
        exact hno k hocc
      rw [he]
      split
      · next h => exact Or.inl ⟨0, List.isPrefixOf_iff_prefix.1 h, hno', rfl⟩
      · next h =>
        refine Or.inr ⟨fun k hocc => ?_, rfl⟩
        rcases Nat.eq_zero_or_pos k with rfl | hk
        · exact h (List.isPrefixOf_iff_prefix.2 hocc)
        · exact hno' k hk hocc

theorem findLast?_eq_some_iff {p s : List Char} (hp : p ≠ []) {i : Nat} :
    findLast? p s = some i ↔ Occurs p s i ∧ ∀ j, i < j → ¬ Occurs p s j := by
  unfold findLast?
  rcases findLastFrom?_cases hp s 0 none with ⟨j, hj, hlast, he⟩ | ⟨hno, he⟩
  · rw [he, Nat.zero_add, Option.some.injEq]
    constructor
    · rintro rfl
      exact ⟨hj, hlast⟩
    · rintro ⟨hi, hlast'⟩
      exact Nat.le_antisymm (Nat.not_lt.1 fun h => hlast' j h hj)
        (Nat.not_lt.1 fun h => hlast i h hi)
  · rw [he]
    exact ⟨fun h => (by cases h), fun h => absurd h.1 (hno i)⟩

theorem findLast?_eq_none_iff {p s : List Char} (hp : p ≠ []) :
    findLast? p s = none ↔ ∀ j, ¬ Occurs p s j := by
  unfold findLast?
  rcases findLastFrom?_cases hp s 0 none with ⟨j, hj, -, he⟩ | ⟨hno, he⟩
  · rw [he]
    exact ⟨fun h => (by cases h), fun h => absurd hj (h j)⟩
  · rw [he]
    exact ⟨fun _ => hno, fun _ => rfl⟩

/-! ### Texts put together -/

/-- No occurrence of the pattern lies across the seam between the two texts. -/
def Apart (p s t : List Char) : Prop :=
  ∀ i, i < s.length → s.length < i + p.length → ¬ Occurs p (s ++ t) i

section Append

variable {p s t : List Char} {c : Char} {i pos : Nat}

theorem Apart.occurs_append_iff (h : Apart p s t) (hi : i < s.length) :
    Occurs p (s ++ t) i ↔ Occurs p s i := by
  refine ⟨fun hocc => ?_, Occurs.append⟩
  exact (occurs_append_of_le (Nat.not_lt.1 fun hlt => h i hi hlt hocc)).1 hocc

theorem apart_of_not_suffix (h : ∀ q, q ≠ [] → q <+: p → q ≠ p → ¬ q <:+ s) : Apart p s t := by
  intro i hi hlt hocc
  have hlen : (s.drop i).length = s.length - i := List.length_drop
  have hdrop : s.drop i = p.take (s.length - i) := by
    have htake := List.prefix_iff_eq_take.1 hocc
    rw [List.drop_append_of_le_length (Nat.le_of_lt hi)] at htake
    rw [htake, List.take_take, Nat.min_eq_left (by omega), ← hlen, List.take_append_length]
  refine h (s.drop i) ?_ (hdrop ▸ List.take_prefix _ _) ?_ (List.drop_suffix i s)
  · exact List.length_pos_iff.1 (by omega)
  · intro heq
    have := congrArg List.length heq
    omega

/-- No beginning of a pattern ends with a character that is not in the pattern. -/
theorem not_suffix_of_not_mem {q : List Char} (hc : c ∉ p) (hq : q ≠ []) (hqp : q <+: p) :
    ¬ q <:+ s ++ [c] := by
  intro h
  rcases List.suffix_concat_iff.1 h with rfl | ⟨r, rfl, -⟩
  · exact hq rfl
  · exact hc (hqp.subset (List.mem_append_right r List.mem_cons_self))

/-- No pattern lies across a seam after a character that is not in it. -/
theorem apart_of_not_mem (hc : c ∉ p) : Apart p (s ++ [c]) t :=
  apart_of_not_suffix fun _ hq hqp _ => not_suffix_of_not_mem hc hq hqp

/-- No pattern lies across a seam before a character that it has at most as its first. -/
theorem apart_cons_of_not_mem (hc : c ∉ p.tail) : Apart p s (c :: t) := by
  intro i hi hlt hocc
  obtain ⟨k, hk⟩ := Nat.exists_eq_add_of_lt hi
  have h := hocc.getElem? (k := k + 1) (by omega)
  rw [← Nat.add_assoc, ← hk, List.getElem?_append_right (Nat.le_refl _), Nat.sub_self] at h
  exact hc (List.mem_iff_getElem?.2 ⟨k, by rw [List.getElem?_tail]; exact h.symm⟩)

theorem apart_nil (hp : p ≠ []) : Apart p s [] := by
  intro i hi hlt hocc
  rw [List.append_nil] at hocc
  have := hocc.add_length_le hp
  omega

/-- No pattern lies across a seam before itself when its last character occurs in it only there. -/
theorem apart_self {r : List Char} (hc : c ∉ r) : Apart (r ++ [c]) s (r ++ [c]) := by
  intro i hi hlt hocc
  rw [List.length_append, List.length_singleton] at hlt
  have h := hocc.getElem? (k := r.length) (by simp)
  rw [List.getElem?_append_right (by omega), List.getElem?_append_left (by omega),
    List.getElem?_append_right (Nat.le_refl _), Nat.sub_self] at h
  exact hc (List.mem_iff_getElem?.2 ⟨_, h⟩)

/-- No pattern lies across a seam after a character that it has only as its last. -/
theorem apart_concat {r : List Char} (hc : c ∉ r) : Apart (r ++ [c]) (s ++ [c]) t := by
  intro i hi hlt hocc
  rw [List.length_append, List.length_singleton] at hi
  rw [List.length_append, List.length_append, List.length_singleton] at hlt
  have h := hocc.getElem? (k := s.length - i) (by simp; omega)
  rw [show i + (s.length - i) = s.length by omega, List.getElem?_append_left (by simp),
    List.getElem?_concat_length, List.getElem?_append_left (by omega)] at h
  exact hc (List.mem_iff_getElem?.2 ⟨_, h.symm⟩)

theorem Occurs.isInfix (h : Occurs p s i) : p <:+: s :=
  (List.IsPrefix.isInfix h).trans (List.drop_suffix i s).isInfix

theorem isInfix_iff_exists_occurs : p <:+: s ↔ ∃ i, Occurs p s i := by
  refine ⟨?_, fun ⟨_, h⟩ => h.isInfix⟩
  rintro ⟨u, v, rfl⟩
  rw [List.append_assoc]
  exact ⟨u.length, occurs_self⟩

/-- A pattern that is in neither text and does not lie across the seam is not in the whole. -/
theorem not_isInfix_append (ha : Apart p s t) (hs : ¬ p <:+: s) (ht : ¬ p <:+: t) :
    ¬ p <:+: s ++ t := by
  rw [isInfix_iff_exists_occurs]
  rintro ⟨i, hocc⟩
  rcases Nat.lt_or_ge i s.length with hlt | hge
  · exact hs ((ha.occurs_append_iff hlt).1 hocc).isInfix
  · obtain ⟨j, rfl⟩ := Nat.exists_eq_add_of_le hge
    exact ht (occurs_append_add.1 hocc).isInfix

/-- A search meets the pattern after a text that does not hold it. -/
theorem find?_of_not_isInfix (hs : ¬ p <:+: s) (ha : Apart p s p) :
    find? p (s ++ p) 0 = some s.length :=
  have hocc : Occurs p p 0 := List.prefix_refl p
  find?_eq_iff.2 ⟨Nat.zero_le _, (occurs_append_add (i := 0)).2 hocc, fun _ _ hj hocc =>
    hs ((ha.occurs_append_iff hj).1 hocc).isInfix⟩

theorem find?_append (hp : p ≠ []) (h : find? p s pos = some i) :
    find? p (s ++ t) pos = some i := by
  have hle := (occurs_of_find?_eq_some h).add_length_le hp
  exact find?_eq_iff.2 ((find?_eq_iff.1 h).congr_some fun j hj =>
    (occurs_append_of_le (by omega)).symm)

theorem find?_of_append (h : find? p (s ++ t) pos = some i) (hi : i + p.length ≤ s.length) :
    find? p s pos = some i :=
  find?_eq_iff.2 ((find?_eq_iff.1 h).congr_some fun _ hj => occurs_append_of_le (by omega))

theorem find?_append_add :
    find? p (s ++ t) (s.length + pos) = (find? p t pos).map (s.length + ·) :=
  find?_eq_iff.2 ((isFirst_find? p t pos).add fun _ => occurs_append_add)

theorem find?_append_length :
    find? p (s ++ t) s.length = (find? p t 0).map (s.length + ·) := by
  rw [← find?_append_add, Nat.add_zero]

end Append

/-! ### Slices -/

section Slice

variable {s t u : List Char} {i j : Nat}

theorem length_slice (h : j ≤ s.length) : (slice s i j).length = j - i := by
  unfold slice
  rw [List.length_take, List.length_drop]
  omega

theorem take_append_slice (h : i ≤ j) : s.take i ++ slice s i j = s.take j := by
  unfold slice
  rw [← List.take_add, Nat.add_sub_cancel' h]

theorem take_append_slice_append_drop (h : i ≤ j) : s.take i ++ (slice s i j ++ s.drop j) = s := by
  rw [← List.append_assoc, take_append_slice h, List.take_append_drop]

theorem slice_append_of_le (hj : j ≤ s.length) : slice (s ++ t) i j = slice s i j := by
  unfold slice
  rw [List.drop_append, List.take_append_of_le_length (by rw [List.length_drop]; omega)]

theorem slice_append_add : slice (s ++ t) (s.length + i) (s.length + j) = slice t i j := by
  unfold slice
  rw [← List.drop_drop, List.drop_append_length, Nat.add_sub_add_left]

/-- The slice of a text between two parts of it is what stands between them. -/
theorem slice_append_append : slice (s ++ (u ++ t)) s.length (s.length + u.length) = u := by
  unfold slice
  rw [List.drop_append_length, Nat.add_sub_cancel_left, List.take_append_length]

/-- What stands before the first occurrence of a pattern does not hold it. -/
theorem not_isInfix_slice {p : List Char} (hp : p ≠ []) (h : find? p s i = some j) :
    ¬ p <:+: slice s i j := by
  rw [isInfix_iff_exists_occurs]
  rintro ⟨k, hk⟩
  obtain ⟨hocc, hle⟩ := (occurs_take hp).1 hk
  have hocc' : Occurs p s (i + k) := by
    unfold Occurs at hocc ⊢
    rwa [List.drop_drop] at hocc
  have := List.length_pos_iff.2 hp
  exact (find?_eq_iff.1 h).2.2 (i + k) (Nat.le_add_right i k) (by omega) hocc'

/-- A text that holds a pattern is cut at its first occurrence. -/
theorem exists_append_of_isInfix {p : List Char} (hp : p ≠ []) (h : p <:+: s) :
    ∃ before after, s = before ++ (p ++ after) ∧ ¬ p <:+: before := by
  rcases hfind : find? p s 0 with _ | i
  · obtain ⟨i, hocc⟩ := isInfix_iff_exists_occurs.1 h
    exact absurd hocc (find?_eq_iff.1 hfind i (Nat.zero_le i))
  · obtain ⟨after, hafter⟩ := occurs_of_find?_eq_some hfind
    refine ⟨s.take i, after, by rw [hafter, List.take_append_drop], ?_⟩
    have hbefore := not_isInfix_slice hp hfind
    rwa [slice, List.drop_zero, Nat.sub_zero] at hbefore

end Slice

/-! ### The part before a character -/

section Span

variable {a : Char} {s : List Char}

theorem forall_bne_of_notMem (h : a ∉ s) : ∀ c ∈ s, (c != a) = true := fun _ hc =>
  bne_iff_ne.2 (ne_of_mem_of_not_mem hc h)

theorem takeWhile_bne_append (h : a ∉ s) (t : List Char) :
    (s ++ a :: t).takeWhile (· != a) = s := by
  rw [List.takeWhile_append_of_pos (forall_bne_of_notMem h), List.takeWhile_cons_of_neg (by simp),
    List.append_nil]

theorem span_bne_append (h : a ∉ s) (t : List Char) :
    (s ++ a :: t).span (· != a) = (s, a :: t) := by
  rw [List.span_eq_takeWhile_dropWhile, takeWhile_bne_append h,
    List.dropWhile_append_of_pos (forall_bne_of_notMem h), List.dropWhile_cons_of_neg (by simp)]

theorem span_bne_of_notMem (h : a ∉ s) : s.span (· != a) = (s, []) := by
  rw [List.span_eq_takeWhile_dropWhile, List.takeWhile_eq_self_iff.2 (forall_bne_of_notMem h),
    List.dropWhile_eq_nil_iff.2 (forall_bne_of_notMem h)]

end Span

/-! ### Parts between separators -/

/-- The parts of a text between separators have no separator and come from the text. -/
theorem notMem_of_mem_splitOn {a : Char} {s part : List Char} (h : part ∈ s.splitOn a) :
    a ∉ part ∧ part ⊆ s := by
  induction s generalizing part with
  | nil =>
    rw [List.splitOn_nil, List.mem_singleton] at h
    simp [h]
  | cons c s ih =>
    rw [List.splitOn_cons_eq_if_modifyHead] at h
    by_cases hc : c = a
    · rw [if_pos (by simpa using hc), List.mem_cons] at h
      rcases h with rfl | h
      · simp
      · exact ⟨(ih h).1, List.subset_cons_of_subset c (ih h).2⟩
    · rw [if_neg (by simpa using hc)] at h
      obtain ⟨first, rest, hparts⟩ := List.exists_cons_of_ne_nil (List.splitOn_ne_nil a s)
      rw [hparts, List.modifyHead_cons, List.mem_cons] at h
      rw [hparts] at ih
      rcases h with rfl | h
      · have ih := ih List.mem_cons_self
        exact ⟨by simp [Ne.symm hc, ih.1], List.cons_subset_cons c ih.2⟩
      · have ih := ih (List.mem_cons_of_mem first h)
        exact ⟨ih.1, List.subset_cons_of_subset c ih.2⟩

end ScriptBlocks.Text
