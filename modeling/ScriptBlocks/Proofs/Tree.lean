import Mathlib.Data.List.Nodup
import ScriptBlocks.Proofs.Naming
import ScriptBlocks.Walk

/-!
# Where steps lead in a tree

`Node.At` says where steps from a node lead, without an order of the entries.  The lists of the
files and of the directories of a tree hold the steps to each of them (`Node.mem_files_iff`,
`Node.mem_directories_iff`), and those of the files once each, if no directory lists a name twice
(`Node.nodup_files`).  Two trees that have the same files and directories differ only in how these
are listed (`Node.Relists`, `Node.relists_directory`), and two file systems of such trees have the
same at every path (`FileSystem.Relists.find`).
-/

namespace ScriptBlocks

/-- The steps lead from one node to another one. -/
inductive Node.At : Node → List String → Node → Prop
  | here {node : Node} : At node [] node
  | step {entries : List (String × Node)} {name : String} {child found : Node}
      {steps : List String} (h : (name, child) ∈ entries) (rest : At child steps found) :
      At (.directory entries) (name :: steps) found

/-- No directory of the tree lists a name twice. -/
def Node.NamesApart (node : Node) : Prop :=
  ∀ steps entries, node.At steps (.directory entries) → (Entries.names entries).Nodup

/-- The trees have the same files and the same directories, however these are listed. -/
structure Node.Relists (node other : Node) : Prop where
  left : node.NamesApart
  right : other.NamesApart
  file_iff : ∀ steps bytes, node.At steps (.file bytes) ↔ other.At steps (.file bytes)
  directory_iff : ∀ steps, (∃ entries, node.At steps (.directory entries)) ↔
    ∃ entries, other.At steps (.directory entries)

variable {node other child found : Node} {entries entries' : List (String × Node)} {name : String}
  {steps : List String} {bytes : List UInt8}

theorem exists_mem_of_forall₂ {α β : Type} {R : α → β → Prop} {a : α} {l : List α} {l' : List β}
    (h : List.Forall₂ R l l') (ha : a ∈ l) : ∃ b ∈ l', R a b := by
  induction h with
  | nil => cases ha
  | cons hab _ ih =>
    rcases List.mem_cons.1 ha with rfl | ha
    · exact ⟨_, List.mem_cons_self, hab⟩
    · obtain ⟨b, hb, hr⟩ := ih ha
      exact ⟨b, List.mem_cons_of_mem _ hb, hr⟩

namespace Node

/-! ### Files and directories -/

theorem at_nil_iff : node.At [] found ↔ found = node := by
  constructor
  · rintro ⟨⟩
    rfl
  · rintro rfl
    exact .here

theorem at_cons_iff :
    node.At (name :: steps) found ↔
      ∃ child, (name, child) ∈ node.entries ∧ child.At steps found := by
  constructor
  · rintro (_ | ⟨hmem, hrest⟩)
    exact ⟨_, hmem, hrest⟩
  · rintro ⟨child, hmem, hrest⟩
    cases node with
    | file => cases hmem
    | directory => exact .step hmem hrest

theorem cons_mem_files_iff :
    name :: steps ∈ node.files ↔ ∃ child, (name, child) ∈ node.entries ∧ steps ∈ child.files := by
  cases node with
  | file => simp [Node.entries]
  | directory => rw [files_directory, filesBelow_eq, cons_mem_flatMap_iff, Node.entries]

theorem cons_mem_directories_iff :
    name :: steps ∈ node.directories ↔
      ∃ child, (name, child) ∈ node.entries ∧ steps ∈ child.directories := by
  cases node with
  | file => simp [Node.entries]
  | directory =>
    rw [directories_directory, directoriesBelow_eq, List.mem_cons, cons_mem_flatMap_iff,
      Node.entries]
    simp

/-- The files of a tree are what the steps that are listed for them lead to. -/
theorem mem_files_iff : steps ∈ node.files ↔ ∃ bytes, node.At steps (.file bytes) := by
  induction steps generalizing node with
  | nil =>
    cases node with
    | file => simp [at_nil_iff]
    | directory =>
      rw [files_directory, filesBelow_eq]
      simp [at_nil_iff]
  | cons name steps ih =>
    simp only [cons_mem_files_iff, ih, at_cons_iff]
    grind

theorem mem_directories_iff :
    steps ∈ node.directories ↔ ∃ entries, node.At steps (.directory entries) := by
  induction steps generalizing node with
  | nil => cases node <;> simp [directories_directory, at_nil_iff]
  | cons name steps ih =>
    simp only [cons_mem_directories_iff, ih, at_cons_iff]
    grind

theorem mem_directoriesBelow_iff : steps ∈ directoriesBelow entries ↔
    steps ≠ [] ∧ ∃ entries', (directory entries).At steps (.directory entries') := by
  rw [← mem_directories_iff, directories_directory, List.mem_cons]
  constructor
  · intro h
    have hne : steps ≠ [] := by
      rintro rfl
      simp [directoriesBelow_eq] at h
    exact ⟨hne, .inr h⟩
  · rintro ⟨hne, h⟩
    exact h.resolve_left hne

/-! ### Names that are listed once -/

theorem NamesApart.of_mem (h : node.NamesApart) (hmem : (name, child) ∈ node.entries) :
    child.NamesApart :=
  fun steps entries hat => h (name :: steps) entries (at_cons_iff.2 ⟨child, hmem, hat⟩)

theorem namesApart_file (bytes : List UInt8) : (file bytes).NamesApart := by
  rintro _ _ (_ | _)

theorem namesApart_directory_iff : (directory entries).NamesApart ↔
    (Entries.names entries).Nodup ∧ ∀ e ∈ entries, e.2.NamesApart := by
  constructor
  · exact fun h => ⟨h [] entries .here, fun e he => h.of_mem he⟩
  · rintro ⟨hnames, hentries⟩ steps below (_ | ⟨hmem, hrest⟩)
    · exact hnames
    · exact hentries _ hmem _ _ hrest

/-- A name stands for one entry. -/
theorem eq_of_mem_entries (h : node.NamesApart) (hchild : (name, child) ∈ node.entries)
    (hother : (name, other) ∈ node.entries) : child = other := by
  cases node with
  | file => cases hchild
  | directory entries =>
    have hnames : (Entries.names entries).Nodup := h [] entries .here
    exact congrArg Prod.snd (List.inj_on_of_nodup_map hnames hchild hother rfl)

theorem At.unique (h : node.NamesApart) (hfound : node.At steps found)
    (hother : node.At steps other) : found = other := by
  induction hfound generalizing other with
  | here => exact (at_nil_iff.1 hother).symm
  | step hmem hrest ih =>
    obtain ⟨child, hchild, hother⟩ := at_cons_iff.1 hother
    obtain rfl := eq_of_mem_entries h hmem hchild
    exact ih (h.of_mem hmem) hother

theorem at_cons_iff_of_mem (h : node.NamesApart) (hmem : (name, child) ∈ node.entries) :
    node.At (name :: steps) found ↔ child.At steps found := by
  rw [at_cons_iff]
  constructor
  · rintro ⟨other, hother, hat⟩
    rwa [eq_of_mem_entries h hmem hother]
  · exact fun hat => ⟨child, hmem, hat⟩

theorem lookup_eq_some_of_mem (h : (directory entries).NamesApart)
    (hmem : (name, child) ∈ entries) : entries.lookup name = some child := by
  rcases hlookup : entries.lookup name with _ | other
  · simpa using List.lookup_eq_none_iff.1 hlookup _ hmem
  · rw [eq_of_mem_entries h (Entries.mem_of_lookup hlookup) hmem]

mutual

theorem nodup_files : (node : Node) → node.NamesApart → node.files.Nodup
  | .file _, _ => List.nodup_singleton _
  | .directory entries, h => by
    obtain ⟨hnames, hentries⟩ := namesApart_directory_iff.1 h
    exact nodup_filesBelow entries hnames hentries

theorem nodup_filesBelow : (entries : List (String × Node)) → (Entries.names entries).Nodup →
    (∀ e ∈ entries, e.2.NamesApart) → (filesBelow entries).Nodup
  | [], _, _ => List.nodup_nil
  | (name, node) :: rest, hnames, hentries => by
    obtain ⟨hname, hrest⟩ := List.nodup_cons.1 hnames
    obtain ⟨hnode, hentries⟩ := List.forall_mem_cons.1 hentries
    have hfiles : (node.files.map (name :: ·)).Nodup :=
      (nodup_files node hnode).map (List.cons_injective)
    refine hfiles.append (nodup_filesBelow rest hrest hentries) ?_
    -- Files of this entry and of later ones are apart by the first step to them.
    rw [List.disjoint_left]
    intro steps hsteps hbelow
    obtain ⟨steps, -, rfl⟩ := List.mem_map.1 hsteps
    rw [filesBelow_eq, cons_mem_flatMap_iff] at hbelow
    obtain ⟨other, hother, -⟩ := hbelow
    exact hname (List.mem_map.2 ⟨_, hother, rfl⟩)

end

/-! ### Trees listed in another order -/

theorem Relists.symm (h : node.Relists other) : other.Relists node where
  left := h.right
  right := h.left
  file_iff steps bytes := (h.file_iff steps bytes).symm
  directory_iff steps := (h.directory_iff steps).symm

theorem Relists.refl (h : node.NamesApart) : node.Relists node where
  left := h
  right := h
  file_iff _ _ := Iff.rfl
  directory_iff _ := Iff.rfl

/-- What is in a directory is in another one that has all its entries listed anew. -/
theorem at_of_entries (h : ∀ name child, (name, child) ∈ entries →
    ∃ found, (name, found) ∈ entries' ∧ child.Relists found) :
    (∀ steps bytes, (directory entries).At steps (.file bytes) →
      (directory entries').At steps (.file bytes)) ∧
    ∀ steps, (∃ below, (directory entries).At steps (.directory below)) →
      ∃ below, (directory entries').At steps (.directory below) := by
  constructor
  · rintro (_ | ⟨name, steps⟩) bytes hat
    · cases hat
    · obtain ⟨child, hmem, hat⟩ := at_cons_iff.1 hat
      obtain ⟨found, hfound, hchild⟩ := h name child hmem
      exact .step hfound ((hchild.file_iff _ _).1 hat)
  · rintro (_ | ⟨name, steps⟩) ⟨below, hat⟩
    · exact ⟨entries', .here⟩
    · obtain ⟨child, hmem, hat⟩ := at_cons_iff.1 hat
      obtain ⟨found, hfound, hchild⟩ := h name child hmem
      obtain ⟨below', hat'⟩ := (hchild.directory_iff _).1 ⟨below, hat⟩
      exact ⟨below', .step hfound hat'⟩

/-- A directory is listed anew by another order of its entries, each of them listed anew. -/
theorem relists_directory {middle : List (String × Node)} (hnames : (Entries.names entries).Nodup)
    (hperm : entries.Perm middle)
    (h : List.Forall₂ (fun e e' => e.1 = e'.1 ∧ e.2.Relists e'.2) middle entries') :
    (directory entries).Relists (directory entries') := by
  have hto (name : String) (child : Node) (hmem : (name, child) ∈ entries) :
      ∃ found, (name, found) ∈ entries' ∧ child.Relists found := by
    obtain ⟨⟨_, found⟩, hfound, rfl, hchild⟩ := exists_mem_of_forall₂ h (hperm.mem_iff.1 hmem)
    exact ⟨found, hfound, hchild⟩
  have hof (name : String) (found : Node) (hmem : (name, found) ∈ entries') :
      ∃ child, (name, child) ∈ entries ∧ found.Relists child := by
    obtain ⟨⟨_, child⟩, hchild, rfl, hfound⟩ := exists_mem_of_forall₂ h.flip hmem
    exact ⟨child, hperm.mem_iff.2 hchild, hfound.symm⟩
  have hnames' : (Entries.names entries').Nodup := by
    have heq : List.Forall₂ (· = ·) (middle.map Prod.fst) (entries'.map Prod.fst) :=
      List.forall₂_map_left_iff.2 (List.forall₂_map_right_iff.2 (h.imp fun _ _ h => h.1))
    rw [List.forall₂_eq_eq_eq] at heq
    rwa [Entries.names, ← heq, ← (hperm.map Prod.fst).nodup_iff]
  constructor
  · refine namesApart_directory_iff.2 ⟨hnames, fun e he => ?_⟩
    obtain ⟨_, -, hchild⟩ := hto e.1 e.2 he
    exact hchild.left
  · refine namesApart_directory_iff.2 ⟨hnames', fun e he => ?_⟩
    obtain ⟨_, -, hfound⟩ := hof e.1 e.2 he
    exact hfound.left
  · exact fun steps bytes => ⟨(at_of_entries hto).1 steps bytes, (at_of_entries hof).1 steps bytes⟩
  · exact fun steps => ⟨(at_of_entries hto).2 steps, (at_of_entries hof).2 steps⟩

theorem Relists.eq_file (h : (file bytes).Relists other) : other = file bytes :=
  (at_nil_iff.1 ((h.file_iff [] bytes).1 .here)).symm

theorem Relists.exists_eq_directory (h : (directory entries).Relists other) :
    ∃ entries', other = directory entries' := by
  obtain ⟨entries', hat⟩ := (h.directory_iff []).1 ⟨entries, .here⟩
  exact ⟨entries', (at_nil_iff.1 hat).symm⟩

theorem Relists.exists_mem (h : node.Relists other) (hmem : (name, child) ∈ node.entries) :
    ∃ found, (name, found) ∈ other.entries := by
  have hat : node.At [name] child := at_cons_iff.2 ⟨child, hmem, .here⟩
  have hother : ∃ found, other.At [name] found := by
    cases child with
    | file bytes => exact ⟨_, (h.file_iff [name] bytes).1 hat⟩
    | directory entries =>
      obtain ⟨entries', hat'⟩ := (h.directory_iff [name]).1 ⟨entries, hat⟩
      exact ⟨_, hat'⟩
  obtain ⟨found, hfound⟩ := hother
  obtain ⟨child', hmem', -⟩ := at_cons_iff.1 hfound
  exact ⟨child', hmem'⟩

/-- Entries of the same name are trees that are listed anew. -/
theorem Relists.of_mem (h : node.Relists other) (hchild : (name, child) ∈ node.entries)
    (hfound : (name, found) ∈ other.entries) : child.Relists found where
  left := h.left.of_mem hchild
  right := h.right.of_mem hfound
  file_iff steps bytes := by
    rw [← at_cons_iff_of_mem h.left hchild, h.file_iff, at_cons_iff_of_mem h.right hfound]
  directory_iff steps := by
    simp only [← at_cons_iff_of_mem h.left hchild, ← at_cons_iff_of_mem h.right hfound]
    exact h.directory_iff _

end Node

namespace FileSystem

variable {fs fs' : FileSystem} {here here' : Node} {around around' : List Node}

/-- No directory of the file system lists a name twice. -/
structure NamesApart (fs : FileSystem) : Prop where
  here : fs.here.NamesApart
  around : ∀ node ∈ fs.around, node.NamesApart

/-- The file systems differ only in how they list their entries. -/
structure Relists (fs fs' : FileSystem) : Prop where
  here : fs.here.Relists fs'.here
  around : List.Forall₂ Node.Relists fs.around fs'.around

/-- What a path comes to in the one file system and in the other. -/
inductive FoundAlike : Except PathFault Node → Except PathFault Node → Prop
  | error (fault : PathFault) : FoundAlike (.error fault) (.error fault)
  | ok {node other : Node} (h : node.Relists other) : FoundAlike (.ok node) (.ok other)

theorem NamesApart.of_find {p : Path} (h : fs.NamesApart) (hfind : fs.find p = .ok node) :
    node.NamesApart :=
  forall_of_find (fun _ _ _ hnode hmem => hnode.of_mem hmem) h.here h.around hfind

theorem Relists.right (h : fs.Relists fs') : fs'.NamesApart where
  here := h.here.right
  around node hmem := by
    obtain ⟨_, -, hnode⟩ := exists_mem_of_forall₂ h.around.flip hmem
    exact hnode.right

theorem follow_relists (hhere : here.Relists here')
    (haround : List.Forall₂ Node.Relists around around') :
    FoundAlike (follow here around steps) (follow here' around' steps) := by
  fun_induction follow here around steps generalizing here' around' with
  | case1 => exact .ok hhere
  | case2 =>
    rw [hhere.eq_file, follow]
    exact .error _
  | case3 entries steps ih =>
    obtain ⟨entries', rfl⟩ := hhere.exists_eq_directory
    cases haround
    rw [follow, if_pos rfl]
    exact ih hhere .nil
  | case4 entries steps parent around ih =>
    obtain ⟨entries', rfl⟩ := hhere.exists_eq_directory
    obtain _ | ⟨hparent, haround⟩ := haround
    rw [follow, if_pos rfl]
    exact ih hparent haround
  | case5 around step steps entries hup hlong =>
    obtain ⟨entries', rfl⟩ := hhere.exists_eq_directory
    simp only [follow, if_neg hup, if_pos hlong]
    exact .error _
  | case6 around step steps entries hup hlong hlookup =>
    obtain ⟨entries', rfl⟩ := hhere.exists_eq_directory
    -- An entry of the one listing would be one of the other.
    have hlookup' : entries'.lookup step = none := by
      rcases hfound : entries'.lookup step with _ | found
      · rfl
      · obtain ⟨child, hchild⟩ := hhere.symm.exists_mem (Entries.mem_of_lookup hfound)
        rw [Node.lookup_eq_some_of_mem hhere.left hchild] at hlookup
        cases hlookup
    simp only [follow, if_neg hup, if_neg hlong, hlookup']
    exact .error _
  | case7 around step steps entries hup hlong node hlookup ih =>
    obtain ⟨entries', rfl⟩ := hhere.exists_eq_directory
    have hmem : (step, node) ∈ entries := Entries.mem_of_lookup hlookup
    obtain ⟨found, hfound⟩ := hhere.exists_mem hmem
    have hlookup' := Node.lookup_eq_some_of_mem hhere.right hfound
    simp only [follow, if_neg hup, if_neg hlong, hlookup']
    exact ih (hhere.of_mem hmem hfound) (.cons hhere haround)

theorem getLast?_relists (hhere : here.Relists here')
    (haround : List.Forall₂ Node.Relists around around') :
    (around.getLast?.getD here).Relists (around'.getLast?.getD here') := by
  induction haround generalizing here here' with
  | nil => exact hhere
  | cons hnode _ ih =>
    rw [List.getLast?_cons, List.getLast?_cons]
    exact ih hnode

/-- A path comes to the same in file systems that differ only in how they list their entries. -/
theorem Relists.find (h : fs.Relists fs') (p : Path) : FoundAlike (fs.find p) (fs'.find p) := by
  unfold FileSystem.find
  split
  · exact .error _
  split
  · exact .error _
  split
  · exact follow_relists h.here h.around
  · exact follow_relists (getLast?_relists h.here h.around) .nil

end FileSystem

end ScriptBlocks
