/-!
# Named entries

Entries give values to names and remember the order in which the names first came.  Their view is
`List.lookup`: `Entries.put` changes the value of one name and leaves all others as they are.
-/

namespace ScriptBlocks

/-- Values by name, in the order in which the names first came. -/
abbrev Entries (α : Type) := List (String × α)

namespace Entries

variable {α : Type}

/-- The entries with `value` for `name`: in its place if the name is there, else at the end. -/
def put (name : String) (value : α) : Entries α → Entries α
  | [] => [(name, value)]
  | (n, v) :: rest => if name = n then (n, value) :: rest else (n, v) :: put name value rest

theorem lookup_put (name : String) (value : α) (x : String) (l : Entries α) :
    List.lookup x (put name value l) = if x = name then some value else l.lookup x := by
  have hne {a : String} (h : ¬x = a) : (x == a) = false := beq_eq_false_iff_ne.2 h
  induction l with
  | nil =>
    by_cases hx : x = name
    · simp [put, hx]
    · simp [put, List.lookup_cons, hx, hne hx]
  | cons entry rest ih =>
    obtain ⟨n, v⟩ := entry
    by_cases hn : name = n
    · subst hn
      by_cases hx : x = name
      · simp [put, hx]
      · simp [put, List.lookup_cons, hx, hne hx]
    · have hs : put name value ((n, v) :: rest) = (n, v) :: put name value rest := by
        simp [put, hn]
      by_cases hx : x = n
      · have : ¬x = name := fun h => hn (h.symm.trans hx)
        subst hx
        simp [hs, this]
      · simp [hs, List.lookup_cons, hne hx, ih]

end Entries

end ScriptBlocks
