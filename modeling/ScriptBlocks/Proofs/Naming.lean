import ScriptBlocks.Proofs.Entries
import ScriptBlocks.Proofs.Text.Search
import ScriptBlocks.Walk

/-!
# Names and paths

A step of a path is a name between slashes (`IsStep`).  Paths that are read from strings without
NUL have such steps (`Path.wellFormed_ofString`), and so do those below them in a file system whose
entries are named that way (`Path.WellFormed.extend`).  Such a path is told by how it is written
(`Path.ofString_toString`), and can be looked up unless it is too long.
-/

namespace ScriptBlocks

/-- A name that can be a step of a path. -/
structure IsStep (name : String) : Prop where
  ne_empty : name ≠ ""
  ne_here : name ≠ "."
  slash_notMem : '/' ∉ name.toList
  nul_notMem : '\x00' ∉ name.toList

instance (name : String) : Decidable (IsStep name) :=
  decidable_of_iff (name ≠ "" ∧ name ≠ "." ∧ '/' ∉ name.toList ∧ '\x00' ∉ name.toList)
    ⟨fun h => ⟨h.1, h.2.1, h.2.2.1, h.2.2.2⟩,
      fun h => ⟨h.ne_empty, h.ne_here, h.slash_notMem, h.nul_notMem⟩⟩

namespace Path

/-- All steps of the path are names that can be steps. -/
def WellFormed (p : Path) : Prop := ∀ step ∈ p.steps, IsStep step

/-! ### Reading -/

section

variable {s : List Char} {c : Char}

theorem splitSlashes_slash (s : List Char) : splitSlashes ('/' :: s) = [] :: splitSlashes s := by
  rw [splitSlashes, List.splitOn_cons_eq_if_modifyHead, if_pos (by rfl), splitSlashes]

theorem splitSlashes_cons (hc : c ≠ '/') :
    splitSlashes (c :: s) = (splitSlashes s).modifyHead (c :: ·) := by
  rw [splitSlashes, List.splitOn_cons_eq_if_modifyHead, if_neg (by simpa using hc), splitSlashes]

theorem exists_mem_splitSlashes (hc : c ∈ s) (hne : c ≠ '/') : ∃ part ∈ splitSlashes s, c ∈ part := by
  induction s with
  | nil => cases hc
  | cons d s ih =>
    by_cases hd : d = '/'
    · have hcs : c ∈ s := (List.mem_cons.1 hc).resolve_left fun h => hne (h.trans hd)
      obtain ⟨part, hpart, hmem⟩ := ih hcs
      rw [hd, splitSlashes_slash]
      exact ⟨part, List.mem_cons_of_mem _ hpart, hmem⟩
    · rw [splitSlashes_cons hd]
      rcases hparts : splitSlashes s with _ | ⟨first, rest⟩
      · exact absurd hparts (List.splitOn_ne_nil '/' s)
      · rw [List.modifyHead_cons]
        rcases List.mem_cons.1 hc with rfl | hc
        · exact ⟨_, List.mem_cons_self, List.mem_cons_self⟩
        · obtain ⟨part, hpart, hmem⟩ := ih hc
          rw [hparts, List.mem_cons] at hpart
          rcases hpart with rfl | hpart
          · exact ⟨_, List.mem_cons_self, List.mem_cons_of_mem d hmem⟩
          · exact ⟨part, List.mem_cons_of_mem _ hpart, hmem⟩

theorem wellFormed_ofString {name : String} (h : '\x00' ∉ name.toList) :
    (ofString name).WellFormed := by
  intro step hstep
  obtain ⟨hmem, hne⟩ := List.mem_filter.1 hstep
  obtain ⟨part, hpart, rfl⟩ := List.mem_map.1 hmem
  obtain ⟨hslash, hsub⟩ := Text.notMem_of_mem_splitOn hpart
  rw [Bool.and_eq_true, bne_iff_ne, bne_iff_ne] at hne
  exact ⟨hne.1, hne.2, by rwa [String.toList_ofList], by
    rw [String.toList_ofList]
    exact fun hnul => h (hsub hnul)⟩

end

/-! ### Writing -/

/-- The steps of a path with slashes between them. -/
def joined (steps : List String) : List Char := ['/'].intercalate (steps.map String.toList)

section

variable {steps : List String} {step : String} {s : List Char} {c : Char} {p q : Path}

theorem exists_joined_cons (step : String) (steps : List String) :
    ∃ more, joined (step :: steps) = step.toList ++ more ∧
      (more = [] ∧ steps = [] ∨ more = '/' :: joined steps ∧ steps ≠ []) := by
  cases steps with
  | nil => exact ⟨[], by simp [joined], Or.inl ⟨rfl, rfl⟩⟩
  | cons next steps =>
    refine ⟨'/' :: joined (next :: steps), ?_, Or.inr ⟨rfl, List.cons_ne_nil _ _⟩⟩
    rw [joined, List.map_cons, List.map_cons, List.intercalate_cons_cons, List.append_assoc]
    rfl

theorem head?_joined_ne (h : ∀ step ∈ steps, IsStep step) : (joined steps).head? ≠ some '/' := by
  cases steps with
  | nil => simp [joined]
  | cons step steps =>
    have hstep := h step List.mem_cons_self
    obtain ⟨more, hmore, -⟩ := exists_joined_cons step steps
    rw [hmore]
    rcases hchars : step.toList with _ | ⟨c, chars⟩
    · exact absurd (String.toList_eq_nil_iff.1 hchars) hstep.ne_empty
    · intro hhead
      cases hhead
      exact hstep.slash_notMem (hchars ▸ List.mem_cons_self)

theorem nul_notMem_joined (h : ∀ step ∈ steps, IsStep step) : '\x00' ∉ joined steps := by
  induction steps with
  | nil => simp [joined]
  | cons step steps ih =>
    obtain ⟨more, hmore, hcases⟩ := exists_joined_cons step steps
    have hstep := (h step List.mem_cons_self).nul_notMem
    have ih := ih fun step hstep => h step (List.mem_cons_of_mem _ hstep)
    rw [hmore]
    rcases hcases with ⟨rfl, -⟩ | ⟨rfl, -⟩ <;> simp [hstep, ih]

theorem mem_joined (hstep : step ∈ steps) (hc : c ∈ step.toList) : c ∈ joined steps := by
  induction steps with
  | nil => cases hstep
  | cons first steps ih =>
    obtain ⟨more, hmore, hcases⟩ := exists_joined_cons first steps
    rw [hmore, List.mem_append]
    rcases List.mem_cons.1 hstep with rfl | hstep
    · exact Or.inl hc
    · right
      rcases hcases with ⟨-, rfl⟩ | ⟨rfl, -⟩
      · cases hstep
      · exact List.mem_cons_of_mem _ (ih hstep)

/-- A NUL in a string is there again when the path that is read from it is written. -/
theorem nul_mem_toString_ofString {name : String} (h : '\x00' ∈ name.toList) :
    '\x00' ∈ (ofString name).toString.toList := by
  obtain ⟨part, hpart, hmem⟩ := exists_mem_splitSlashes h (by decide)
  have hne (t : String) (ht : '\x00' ∉ t.toList) : String.ofList part ≠ t := by
    rintro rfl
    exact ht (by rwa [String.toList_ofList])
  have hstep : String.ofList part ∈ (ofString name).steps := by
    refine List.mem_filter.2 ⟨List.mem_map_of_mem hpart, ?_⟩
    rw [Bool.and_eq_true, bne_iff_ne, bne_iff_ne]
    exact ⟨hne "" (by decide), hne "." (by decide)⟩
  have hwritten : '\x00' ∈
      ((ofString name).anchor.text ++ "/".intercalate (ofString name).steps).toList := by
    rw [String.toList_append, String.toList_intercalate]
    exact List.mem_append_right _ (mem_joined hstep (by rwa [String.toList_ofList]))
  rw [toString]
  split
  · next hempty =>
    rw [hempty] at hwritten
    cases hwritten
  · exact hwritten

/-- A path is written as its anchor and its steps, unless both are missing. -/
theorem toList_toString (hp : p.WellFormed) :
    p = ⟨.relative, []⟩ ∨ p.toString.toList = p.anchor.text.toList ++ joined p.steps := by
  have hjoined : (p.anchor.text ++ "/".intercalate p.steps).toList =
      p.anchor.text.toList ++ joined p.steps := by
    rw [String.toList_append, String.toList_intercalate]
    rfl
  by_cases hempty : p.anchor.text ++ "/".intercalate p.steps = ""
  · left
    rw [hempty] at hjoined
    obtain ⟨hanchor, hsteps⟩ := List.append_eq_nil_iff.1 hjoined.symm
    obtain ⟨anchor, steps⟩ := p
    cases steps with
    | nil => cases anchor <;> first | rfl | cases hanchor
    | cons step steps =>
      obtain ⟨more, hmore, -⟩ := exists_joined_cons step steps
      have hstep := (List.append_eq_nil_iff.1 (hmore.symm.trans hsteps)).1
      exact absurd (String.toList_eq_nil_iff.1 hstep) (hp step List.mem_cons_self).ne_empty
  · right
    rw [toString]
    simp only [if_neg hempty]
    exact hjoined

theorem anchorOf_append (anchor : Anchor) (h : s.head? ≠ some '/') :
    anchorOf (anchor.text.toList ++ s) = anchor := by
  have htake : s.takeWhile (· == '/') = [] := by
    cases s with
    | nil => rfl
    | cons c s =>
      apply List.takeWhile_cons_of_neg
      rintro hc
      exact h (by rw [List.head?_cons, eq_of_beq hc])
  cases anchor <;> simp [anchorOf, Anchor.text, htake]

/-- The steps that the parts of a text between slashes give. -/
def stepsOf (s : List Char) : List String :=
  ((splitSlashes s).map String.ofList).filter fun step => step != "" && step != "."

theorem stepsOf_slash (s : List Char) : stepsOf ('/' :: s) = stepsOf s := by
  rw [stepsOf, splitSlashes_slash]
  rfl

theorem stepsOf_joined (h : ∀ step ∈ steps, IsStep step) : stepsOf (joined steps) = steps := by
  cases steps with
  | nil => decide
  | cons step rest =>
    have hslash : ∀ part ∈ (step :: rest).map String.toList, '/' ∉ part := by
      intro part hpart
      obtain ⟨next, hnext, rfl⟩ := List.mem_map.1 hpart
      exact (h next hnext).slash_notMem
    rw [stepsOf, splitSlashes, joined, List.splitOn_intercalate _ hslash (by simp), List.map_map]
    have hid : (String.ofList ∘ String.toList) = id := funext fun _ => String.ofList_toList
    rw [hid, List.map_id, List.filter_eq_self]
    intro next hnext
    have hstep := h next hnext
    simp [hstep.ne_empty, hstep.ne_here]

/-- What is written for a path is read as this path. -/
theorem ofString_toString (hp : p.WellFormed) : ofString p.toString = p := by
  rcases toList_toString hp with rfl | h
  · decide
  · have hsteps : stepsOf (p.anchor.text.toList ++ joined p.steps) = p.steps := by
      rw [← stepsOf_joined hp]
      cases p.anchor <;> simp [Anchor.text, stepsOf_slash, stepsOf_joined hp]
    show Path.mk (anchorOf p.toString.toList) (stepsOf p.toString.toList) = p
    rw [h, anchorOf_append _ (head?_joined_ne hp), hsteps]

/-- A name that can be a step is a path of this one step. -/
theorem ofString_eq_of_isStep (h : IsStep step) : ofString step = ⟨.relative, [step]⟩ := by
  have hp : WellFormed ⟨.relative, [step]⟩ := fun other hother => by
    rwa [List.mem_singleton.1 hother]
  have hwritten : toString ⟨.relative, [step]⟩ = step := by
    rcases toList_toString hp with hnone | hwritten
    · cases hnone
    · rw [← String.toList_inj, hwritten]
      simp [Anchor.text, joined]
  rw [← ofString_toString hp, hwritten]

theorem nul_notMem_toString (hp : p.WellFormed) : '\x00' ∉ p.toString.toList := by
  rcases toList_toString hp with rfl | h
  · decide
  · rw [h, List.mem_append, not_or]
    refine ⟨?_, nul_notMem_joined hp⟩
    cases p.anchor <;> decide

theorem toString_inj (hp : p.WellFormed) (hq : q.WellFormed) : p.toString = q.toString ↔ p = q := by
  constructor
  · intro h
    rw [← ofString_toString hp, h, ofString_toString hq]
  · rintro rfl
    rfl

theorem WellFormed.extend (hp : p.WellFormed) (h : ∀ step ∈ steps, IsStep step) :
    (p.extend steps).WellFormed := by
  intro step hstep
  rcases List.mem_append.1 hstep with hstep | hstep
  · exact hp step hstep
  · exact h step hstep

end

end Path

/-! ### Trees -/

section

variable {entries : List (String × Node)} {node here found : Node} {around : List Node}
  {name : String} {steps : List String}

@[simp] theorem Node.files_file (bytes : List UInt8) : (Node.file bytes).files = [[]] := rfl

theorem Node.files_directory (entries : List (String × Node)) :
    (Node.directory entries).files = filesBelow entries := rfl

@[simp] theorem Node.directories_file (bytes : List UInt8) :
    (Node.file bytes).directories = [] := rfl

theorem Node.directories_directory (entries : List (String × Node)) :
    (Node.directory entries).directories = [] :: directoriesBelow entries := rfl

theorem filesBelow_eq (entries : List (String × Node)) :
    filesBelow entries = entries.flatMap fun e => e.2.files.map (e.1 :: ·) := by
  induction entries with
  | nil => rfl
  | cons e rest ih => exact congrArg (e.2.files.map (e.1 :: ·) ++ ·) ih

theorem directoriesBelow_eq (entries : List (String × Node)) :
    directoriesBelow entries = entries.flatMap fun e => e.2.directories.map (e.1 :: ·) := by
  induction entries with
  | nil => rfl
  | cons e rest ih => exact congrArg (e.2.directories.map (e.1 :: ·) ++ ·) ih

/-- Steps lead from a directory to what is `below` it through one of its entries. -/
theorem cons_mem_flatMap_iff {below : Node → List (List String)} :
    name :: steps ∈ (entries.flatMap fun e => (below e.2).map (e.1 :: ·)) ↔
      ∃ node, (name, node) ∈ entries ∧ steps ∈ below node := by
  rw [List.mem_flatMap]
  constructor
  · rintro ⟨⟨_, node⟩, hmem, hsteps⟩
    obtain ⟨_, hbelow, heq⟩ := List.mem_map.1 hsteps
    cases heq
    exact ⟨node, hmem, hbelow⟩
  · rintro ⟨node, hmem, hbelow⟩
    exact ⟨_, hmem, List.mem_map_of_mem hbelow⟩

/-- All names at any depth below the node can be steps of a path. -/
def Node.WellNamed (node : Node) : Prop :=
  ∀ steps ∈ node.files ++ node.directories, ∀ step ∈ steps, IsStep step

instance (node : Node) : Decidable node.WellNamed :=
  inferInstanceAs
    (Decidable (∀ steps ∈ node.files ++ node.directories, ∀ step ∈ steps, IsStep step))

theorem Node.WellNamed.of_mem (h : (Node.directory entries).WellNamed)
    (hmem : (name, node) ∈ entries) : node.WellNamed := by
  intro steps hsteps step hstep
  refine h (name :: steps) ?_ step (List.mem_cons_of_mem name hstep)
  rw [List.mem_append, Node.files_directory, Node.directories_directory, filesBelow_eq,
    directoriesBelow_eq]
  rcases List.mem_append.1 hsteps with hsteps | hsteps
  · exact Or.inl (cons_mem_flatMap_iff.2 ⟨node, hmem, hsteps⟩)
  · exact Or.inr (List.mem_cons_of_mem _ (cons_mem_flatMap_iff.2 ⟨node, hmem, hsteps⟩))

namespace FileSystem

/-- What holds of the nodes around and passes from a directory to its entries holds of what steps
lead to. -/
theorem forall_of_follow {P : Node → Prop}
    (hP : ∀ entries name node, P (.directory entries) → (name, node) ∈ entries → P node)
    (hhere : P here) (haround : ∀ node ∈ around, P node)
    (h : follow here around steps = .ok found) : P found := by
  fun_induction follow here around steps with
  | case1 =>
    cases h
    exact hhere
  | case2 | case5 | case6 => cases h
  | case3 entries steps ih => exact ih hhere haround h
  | case4 entries steps parent around ih =>
    exact ih (haround parent List.mem_cons_self)
      (fun node hnode => haround node (List.mem_cons_of_mem parent hnode)) h
  -- A step down to an entry, which the directory that is left passes the property to.
  | case7 around step steps entries _ _ node hlookup ih =>
    refine ih (hP entries step node hhere (Entries.mem_of_lookup hlookup)) ?_ h
    intro other hother
    rcases List.mem_cons.1 hother with rfl | hother
    · exact hhere
    · exact haround other hother

theorem forall_of_find {P : Node → Prop} {fs : FileSystem} {p : Path}
    (hP : ∀ entries name node, P (.directory entries) → (name, node) ∈ entries → P node)
    (hhere : P fs.here) (haround : ∀ node ∈ fs.around, P node) (h : fs.find p = .ok found) :
    P found := by
  unfold find at h
  split at h
  · cases h
  split at h
  · cases h
  split at h
  · exact forall_of_follow hP hhere haround h
  · refine forall_of_follow hP ?_ (by simp) h
    unfold outermost
    rcases hlast : fs.around.getLast? with _ | node
    · exact hhere
    · exact haround node (List.mem_of_getLast? hlast)

/-- All names at any depth in the file system can be steps of a path. -/
structure WellNamed (fs : FileSystem) : Prop where
  here : fs.here.WellNamed
  around : ∀ node ∈ fs.around, node.WellNamed

instance (fs : FileSystem) : Decidable fs.WellNamed :=
  decidable_of_iff (fs.here.WellNamed ∧ ∀ node ∈ fs.around, node.WellNamed)
    ⟨fun h => ⟨h.1, h.2⟩, fun h => ⟨h.here, h.around⟩⟩

/-- What a path leads to is named like the rest of the file system. -/
theorem WellNamed.of_find {fs : FileSystem} {p : Path} (h : fs.WellNamed)
    (hfind : fs.find p = .ok found) : found.WellNamed :=
  forall_of_find (fun _ _ _ hnode => hnode.of_mem) h.here h.around hfind

end FileSystem

end

end ScriptBlocks
