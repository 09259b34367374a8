import Mathlib.Data.List.Induction
import ScriptBlocks.Entries

/-!
# Entries changed by entries

`Entries.update` changes entries by others, one after the other.  The names of what comes of it are
those that came, each where it came first (`Entries.names_update_nil`), and entries that come of
changes can stand for these changes (`Entries.update_update_nil`).
-/

namespace ScriptBlocks.Entries

variable {α β : Type} {name other : String} {value first : α} {l m : Entries α}

/-- The names of entries, in their order. -/
def names (l : Entries α) : List String := l.map Prod.fst

@[simp] theorem names_nil : names ([] : Entries α) = [] := rfl

@[simp] theorem names_cons (e : String × α) (l : Entries α) : names (e :: l) = e.1 :: names l := rfl

@[simp] theorem names_append (l m : Entries α) : names (l ++ m) = names l ++ names m :=
  List.map_append

theorem mem_of_lookup {value : α} (h : l.lookup name = some value) : (name, value) ∈ l := by
  obtain ⟨before, after, rfl, -⟩ := List.lookup_eq_some_iff.1 h
  simp

/-- The entries `l`, changed by those of `m` one after the other. -/
def update (l m : Entries α) : Entries α := m.foldl (fun l e => l.put e.1 e.2) l

@[simp] theorem update_nil (l : Entries α) : update l [] = l := rfl

@[simp] theorem update_cons (l : Entries α) (e : String × α) (m : Entries α) :
    update l (e :: m) = update (put e.1 e.2 l) m := rfl

/-! ### One change -/

theorem put_cons_self (name : String) (value first : α) (l : Entries α) :
    put name value ((name, first) :: l) = (name, value) :: l := by simp [put]

theorem put_cons_of_ne (h : name ≠ other) (value first : α) (l : Entries α) :
    put name value ((other, first) :: l) = (other, first) :: put name value l := by simp [put, h]

theorem names_put (name : String) (value : α) (l : Entries α) :
    names (put name value l) = if name ∈ names l then names l else names l ++ [name] := by
  induction l with
  | nil => simp [put]
  | cons e rest ih =>
    obtain ⟨n, v⟩ := e
    by_cases hn : name = n
    · subst hn
      simp [put_cons_self]
    · rw [put_cons_of_ne hn, names_cons, ih]
      by_cases hrest : name ∈ names rest <;> simp [hn, hrest]

theorem mem_names_put (h : name ∈ names l ∨ name = other) : name ∈ names (put other value l) := by
  rw [names_put]
  split
  · next hother => exact h.elim id fun heq => heq ▸ hother
  · simpa using h

theorem nodup_names_put (h : (names l).Nodup) : (names (put name value l)).Nodup := by
  rw [names_put]
  split
  · exact h
  · next hname =>
    rw [List.nodup_append]
    refine ⟨h, by simp, ?_⟩
    rintro n hn _ hmem rfl
    exact hname (List.mem_singleton.1 hmem ▸ hn)

/-- Of two changes of one name the later counts. -/
theorem put_put (name : String) (value first : α) (l : Entries α) :
    put name value (put name first l) = put name value l := by
  induction l with
  | nil => simp [put]
  | cons e rest ih => by_cases hn : name = e.1 <;> simp [put, hn, ih]

/-- A name that is there keeps its place, whatever else is changed. -/
theorem put_comm (hne : name ≠ other) (h : name ∈ names l) :
    put name value (put other first l) = put other first (put name value l) := by
  induction l with
  | nil => cases h
  | cons e rest ih =>
    obtain ⟨n, v⟩ := e
    by_cases hn : name = n
    · subst hn
      rw [put_cons_of_ne hne.symm, put_cons_self, put_cons_self, put_cons_of_ne hne.symm]
    · have hrest : name ∈ names rest := (List.mem_cons.1 h).resolve_left hn
      by_cases hother : other = n
      · subst hother
        rw [put_cons_self, put_cons_of_ne hn, put_cons_of_ne hn, put_cons_self]
      · rw [put_cons_of_ne hother, put_cons_of_ne hn, put_cons_of_ne hn, put_cons_of_ne hother,
          ih hrest]

/-! ### Many changes -/

theorem update_append (l m n : Entries α) : update l (m ++ n) = update (update l m) n :=
  List.foldl_append

theorem update_concat (l m : Entries α) (e : String × α) :
    update l (m ++ [e]) = put e.1 e.2 (update l m) :=
  update_append l m [e]

theorem nodup_names_update (h : (names l).Nodup) (m : Entries α) : (names (update l m)).Nodup := by
  induction m generalizing l with
  | nil => exact h
  | cons e m ih => exact ih (nodup_names_put h)

/-- What comes of changes has their names, each where it came first. -/
theorem names_update_nil (m : Entries α) : names (update [] m) = (names m).eraseDups := by
  induction m using List.reverseRecOn with
  | nil => rfl
  | append_singleton m e ih =>
    rw [update_concat, names_put, ih, names_append, List.eraseDups_append]
    by_cases h : e.1 ∈ names m <;> simp [List.removeAll, List.eraseDups_cons, h]

theorem update_put_of_notMem (hname : name ∉ names m) (h : name ∈ names l) :
    update (put name value l) m = put name value (update l m) := by
  induction m generalizing l with
  | nil => rfl
  | cons e m ih =>
    rw [names_cons, List.mem_cons, not_or] at hname
    rw [update_cons, update_cons, ← put_comm hname.1 h]
    exact ih hname.2 (mem_names_put (Or.inl h))

/-- To change the entries by which others are changed is to change what comes of it. -/
theorem update_put (l : Entries α) (hm : (names m).Nodup) (name : String) (value : α) :
    update l (put name value m) = put name value (update l m) := by
  induction m generalizing l with
  | nil => rfl
  | cons e rest ih =>
    obtain ⟨n, v⟩ := e
    rw [names_cons, List.nodup_cons] at hm
    by_cases hn : name = n
    · subst hn
      -- The name stands in its place from here on, and the rest does not change it.
      rw [put_cons_self, update_cons, update_cons,
        ← update_put_of_notMem hm.1 (mem_names_put (Or.inr rfl)), put_put]
    · rw [put_cons_of_ne hn, update_cons, update_cons, ih _ hm.2]

/-- What comes of changes stands for them wherever they are made. -/
theorem update_update_nil (l m : Entries α) : update l (update [] m) = update l m := by
  induction m using List.reverseRecOn with
  | nil => rfl
  | append_singleton m e ih =>
    have hnodup : (names (update [] m)).Nodup := nodup_names_update (by simp) m
    rw [update_concat, update_concat, update_put l hnodup, ih]

end ScriptBlocks.Entries
