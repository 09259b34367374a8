import ScriptBlocks.Proofs.Text.Search
import ScriptBlocks.Tag

/-!
# The closing angle in a longer text

The angle that closes a tag is found from the characters up to it (`Tag.closingAngle?_append`), so
that more text after it changes nothing, and text before the place where the search begins only
moves it on (`Tag.closingAngle?_append_add`).
-/

namespace ScriptBlocks.Tag

variable {s t u : List Char} {quote : Option Char} {i j n pos : Nat}

theorem getElem?_closingAngleFrom? (h : closingAngleFrom? quote i s = some (i + j)) :
    s[j]? = some '>' := by
  induction s generalizing quote i j with
  | nil => cases h
  | cons c s ih =>
    simp only [closingAngleFrom?] at h
    have htail : ∀ q, closingAngleFrom? q (i + 1) s = some (i + j) → (c :: s)[j]? = some '>' := by
      intro q hq
      have := (bounds_of_closingAngleFrom? hq).1
      obtain ⟨k, rfl⟩ : ∃ k, j = k + 1 := ⟨j - 1, by omega⟩
      rw [List.getElem?_cons_succ]
      exact ih (i := i + 1) (by rw [hq]; congr 1; omega)
    split at h
    · exact htail _ h
    · split at h
      · next hc =>
        obtain rfl : j = 0 := by
          have := Option.some.inj h
          omega
        rw [hc]
        rfl
      · exact htail _ h

theorem getElem?_closingAngle? (h : closingAngle? s pos = some j) : s[j]? = some '>' := by
  obtain ⟨k, rfl⟩ := Nat.exists_eq_add_of_le (bounds_of_closingAngle? h).1
  rw [← List.getElem?_drop]
  exact getElem?_closingAngleFrom? h

theorem closingAngleFrom?_append (h : closingAngleFrom? quote i s = some j) :
    closingAngleFrom? quote i (s ++ t) = some j := by
  induction s generalizing quote i with
  | nil => cases h
  | cons c s ih =>
    simp only [List.cons_append, closingAngleFrom?] at h ⊢
    split at h
    · exact ih h
    · split at h
      · next hc =>
        rw [if_pos hc]
        exact h
      · next hc =>
        rw [if_neg hc]
        exact ih h

theorem closingAngle?_append (h : closingAngle? s pos = some j) :
    closingAngle? (s ++ t) pos = some j := by
  unfold closingAngle? at h ⊢
  rw [List.drop_append]
  exact closingAngleFrom?_append h

theorem closingAngleFrom?_of_append (h : closingAngleFrom? quote i (s ++ t) = some j)
    (hj : j < i + s.length) : closingAngleFrom? quote i s = some j := by
  induction s generalizing quote i with
  | nil =>
    have := (bounds_of_closingAngleFrom? h).1
    simp only [List.length_nil] at hj
    omega
  | cons c s ih =>
    simp only [List.length_cons] at hj
    simp only [List.cons_append, closingAngleFrom?] at h ⊢
    split at h
    · exact ih h (by omega)
    · split at h
      · next hc =>
        rw [if_pos hc]
        exact h
      · next hc =>
        rw [if_neg hc]
        exact ih h (by omega)

theorem closingAngle?_of_append (h : closingAngle? (s ++ t) pos = some j) (hj : j < s.length) :
    closingAngle? s pos = some j := by
  have hpos := (bounds_of_closingAngle? h).1
  unfold closingAngle? at h ⊢
  rw [List.drop_append] at h
  exact closingAngleFrom?_of_append h (by rw [List.length_drop]; omega)

theorem closingAngleFrom?_add :
    closingAngleFrom? quote (n + i) s = (closingAngleFrom? quote i s).map (n + ·) := by
  induction s generalizing quote i with
  | nil => rfl
  | cons c s ih =>
    simp only [closingAngleFrom?, Nat.add_assoc]
    split
    · exact ih
    · split
      · rfl
      · exact ih

theorem closingAngle?_append_add :
    closingAngle? (s ++ t) (s.length + pos) = (closingAngle? t pos).map (s.length + ·) := by
  unfold closingAngle?
  rw [← List.drop_drop, List.drop_append_length, closingAngleFrom?_add]

/-- A quoted part runs to the next quote of its kind. -/
theorem closingAngleFrom?_quoted {q : Char} (h : q ∉ u) :
    closingAngleFrom? (some q) i (u ++ q :: s) = closingAngleFrom? none (i + u.length + 1) s := by
  induction u generalizing i with
  | nil => rw [List.nil_append, closingAngleFrom?, if_pos rfl, List.length_nil, Nat.add_zero]
  | cons c u ih =>
    have hc : c ≠ q := fun hc => h (hc ▸ List.mem_cons_self)
    rw [List.cons_append, closingAngleFrom?, if_neg hc, ih fun hq => h (List.mem_cons_of_mem c hq),
      List.length_cons, Nat.add_assoc i, Nat.add_comm 1]

end ScriptBlocks.Tag
