import ScriptBlocks.Text.Search

/-!
# Comments

A comment runs from `<!--` to the first `-->` from there.  `Comment.closingAround? text i` looks
at the last opening before `i`: when the comment that it begins is closed after `i`, the answer is
where.  An opening with no closing hides nothing.
-/

namespace ScriptBlocks.Comment

def opening : List Char := ['<', '!', '-', '-']

def closing : List Char := ['-', '-', '>']

/-- The index of the `-->` that ends the comment around index `i`, if `i` lies in one. -/
def closingAround? (text : List Char) (i : Nat) : Option Nat :=
  match Text.findLast? opening (text.take i) with
  | none => none
  | some start => (Text.find? closing text start).filter (i < ·)

theorem bounds_of_closingAround? {text : List Char} {i e : Nat}
    (h : closingAround? text i = some e) : i < e ∧ e + closing.length ≤ text.length := by
  unfold closingAround? at h
  split at h
  · cases h
  · obtain ⟨he, hi⟩ := Option.filter_eq_some_iff.1 h
    exact ⟨of_decide_eq_true hi, Text.add_length_le_of_find?_eq_some (by decide) he⟩

end ScriptBlocks.Comment
