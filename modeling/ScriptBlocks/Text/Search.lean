/-!
# Searching in text

Text is a list of characters and a position in it is an index from `0`.  `find? p s pos` is the
first position from `pos` on where `p` occurs in `s`, `findLast? p s` is the last position of all,
and `slice s i j` is the part from `i` to just before `j`.  The lemmas bound the first position
found: an occurrence starts at or after the index asked for and ends inside the text.
-/

namespace ScriptBlocks.Text

/-- The first place in `s` where `p` occurs, counting the head of `s` as index `i`. -/
def findFrom? (p : List Char) (i : Nat) : List Char → Option Nat
  | [] => if p.isEmpty then some i else none
  | c :: s => if p.isPrefixOf (c :: s) then some i else findFrom? p (i + 1) s

/-- The first index at or after `pos` where `p` occurs in `s`. -/
def find? (p s : List Char) (pos : Nat) : Option Nat :=
  findFrom? p pos (s.drop pos)

/-- The last place in `s` where `p` occurs, counting the head of `s` as index `i`; `best` is the
last one met so far. -/
def findLastFrom? (p : List Char) (i : Nat) (best : Option Nat) : List Char → Option Nat
  | [] => if p.isEmpty then some i else best
  | c :: s => findLastFrom? p (i + 1) (if p.isPrefixOf (c :: s) then some i else best) s

/-- The last index where `p` occurs in `s`. -/
def findLast? (p s : List Char) : Option Nat :=
  findLastFrom? p 0 none s

/-- The characters of `s` from index `i` to just before index `j`. -/
def slice (s : List Char) (i j : Nat) : List Char :=
  (s.drop i).take (j - i)

/-! ### Bounds of what is found -/

theorem findFrom?_bounds {p s : List Char} {i j : Nat} (h : findFrom? p i s = some j) :
    i ≤ j ∧ j + p.length ≤ i + s.length := by
  induction s generalizing i with
  | nil =>
    simp only [findFrom?] at h
    split at h
    · next hp => cases h; simp_all
    · cases h
  | cons c s ih =>
    simp only [findFrom?] at h
    split at h
    · next hp =>
      cases h
      have := (List.isPrefixOf_iff_prefix.1 hp).length_le
      simp only [List.length_cons] at this ⊢
      omega
    · have := ih h
      simp only [List.length_cons]
      omega

theorem le_of_find?_eq_some {p s : List Char} {pos j : Nat} (h : find? p s pos = some j) :
    pos ≤ j :=
  (findFrom?_bounds h).1

/-- An occurrence of a nonempty pattern ends inside the text. -/
theorem add_length_le_of_find?_eq_some {p s : List Char} {pos j : Nat} (hp : p ≠ [])
    (h : find? p s pos = some j) : j + p.length ≤ s.length := by
  have hb := findFrom?_bounds h
  have hl : 0 < p.length := List.length_pos_iff.2 hp
  simp only [List.length_drop] at hb
  omega

end ScriptBlocks.Text
