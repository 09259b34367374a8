import Mathlib.Data.List.Sort
import ScriptBlocks.Proofs.Completion
import ScriptBlocks.Proofs.Tree

/-!
# What a walk gives, and in which order

An argument stands for itself or, if it leads to a directory, for the files at any depth below it
with one of the given suffixes, in strictly increasing order of their components (`Walk.Lists`).
This says nothing of the order in which directories list their entries, and the list does not
depend on it (`Walk.filesFor_eq_of_relists`).  A walk gives such a list for each of its arguments,
one after the other, up to the first argument that cannot be examined (`Walk.ofArguments_lists`).
-/

namespace ScriptBlocks

namespace Path

/-- The components of the one path come before those of the other. -/
def Before (p q : Path) : Prop := p.components < q.components

instance : DecidableRel Before := fun p q =>
  inferInstanceAs (Decidable (p.components < q.components))

example : (ofString "a/b").Before (ofString "a-b/x") := by decide

variable {p q : Path}

instance : Std.Irrefl Before := ⟨fun p => List.lt_irrefl p.components⟩

instance : Std.Antisymm Before := ⟨fun _ _ h h' => absurd h' (List.lt_asymm h)⟩

theorem le_iff : le p q = true ↔ ¬ q.Before p := by
  rw [le, Bool.not_eq_true', decide_eq_false_iff_not, Before]

theorem le_trans {p q r : Path} (hpq : le p q = true) (hqr : le q r = true) : le p r = true := by
  rw [le_iff, Before, List.not_lt] at hpq hqr ⊢
  exact List.le_trans hpq hqr

theorem le_total (p q : Path) : (le p q || le q p) = true := by
  rw [Bool.or_eq_true, le_iff, le_iff, Before, Before, List.not_lt, List.not_lt]
  exact List.le_total _ _

theorem before_of_le (h : le p q = true) (hne : p.components ≠ q.components) : p.Before q := by
  rw [le_iff, Before, List.not_lt] at h
  rw [Before, ← List.not_le]
  exact fun h' => hne (List.le_antisymm h h')

theorem components_extend (p : Path) (steps : List String) :
    (p.extend steps).components = p.components ++ steps := by
  unfold components extend
  split <;> rfl

theorem extend_injective (p : Path) : Function.Injective p.extend := fun _ _ h =>
  List.append_cancel_left (congrArg Path.steps h)

end Path

namespace Walk

/-- What the walk gives for a path: the path itself, or the files below it that are picked up. -/
inductive Lists (fs : FileSystem) (extensions : List String) (p : Path) : List Path → Prop
  | directory {entries : List (String × Node)} {l : List Path}
      (hfind : fs.find p = .ok (.directory entries))
      (hfile : ∀ q, q ∈ l ↔ ∃ steps bytes, (Node.directory entries).At steps (.file bytes) ∧
        q = p.extend steps ∧ String.ofList (Text.lowerCase q.suffix) ∈ extensions)
      (hdirectory : ∀ steps entries', (Node.directory entries).At steps (.directory entries') →
        p.extend steps ∉ l)
      (hsorted : l.Pairwise Path.Before) : Lists fs extensions p l
  | other (h : ∀ entries, fs.find p ≠ .ok (.directory entries)) : Lists fs extensions p [p]

variable {fs fs' : FileSystem} {extensions arguments before after : List String} {a : String}
  {p q : Path} {entries : List (String × Node)}

/-! ### One path -/

theorem mem_filesOf_iff_at : q ∈ filesOf p entries ↔
    ∃ steps bytes, (Node.directory entries).At steps (.file bytes) ∧ q = p.extend steps := by
  rw [mem_filesOf_iff]
  show (∃ steps ∈ (Node.directory entries).files, _) ↔ _
  simp only [Node.mem_files_iff]
  grind

/-- If no directory lists a name twice, the files come in strictly increasing order. -/
theorem pairwise_filesOf (h : (Node.directory entries).NamesApart) (p : Path) :
    (filesOf p entries).Pairwise Path.Before := by
  have hsorted : (filesOf p entries).Pairwise fun q r => Path.le q r = true := by
    apply List.pairwise_mergeSort
    · exact fun _ _ _ => Path.le_trans
    · exact Path.le_total
  have hnodup : ((filesOf p entries).map Path.components).Nodup := by
    have hperm := (List.mergeSort_perm ((filesBelow entries).map p.extend) Path.le).map
      Path.components
    rw [filesOf, hperm.nodup_iff, List.map_map]
    refine (Node.nodup_files _ h).map fun steps steps' heq => ?_
    simpa [Path.components_extend] using heq
  exact hsorted.imp₂ (fun q r => Path.before_of_le) (List.pairwise_map.1 hnodup)

theorem lists_filesFor (hfs : fs.NamesApart) (extensions : List String) (p : Path) :
    Lists fs extensions p (filesFor fs extensions p) := by
  unfold filesFor
  split
  · next entries hfind =>
    have hapart : (Node.directory entries).NamesApart := hfs.of_find hfind
    refine .directory hfind (fun q => ?_) (fun steps entries' hat hmem => ?_)
      ((pairwise_filesOf hapart p).filter _)
    · rw [List.mem_filter, mem_filesOf_iff_at, picksUp, List.contains_iff_mem]
      grind
    · obtain ⟨steps', bytes, hfile, heq⟩ := mem_filesOf_iff_at.1 (List.mem_filter.1 hmem).1
      obtain rfl := p.extend_injective heq
      cases hat.unique hapart hfile
  · next hfind => exact .other hfind

/-- A list that the walk gives for a path is the only one. -/
theorem Lists.unique {l l' : List Path} (h : Lists fs extensions p l)
    (h' : Lists fs extensions p l') : l = l' := by
  cases h with
  | directory hfind hfile hdirectory hsorted =>
    cases h' with
    | directory hfind' hfile' hdirectory' hsorted' =>
      cases hfind.symm.trans hfind'
      exact hsorted.eq_of_mem_iff hsorted' fun q => (hfile q).trans (hfile' q).symm
    | other hother => exact absurd hfind (hother _)
  | other hother =>
    cases h' with
    | directory hfind' => exact absurd hfind' (hother _)
    | other => rfl

/-! ### Directories listed in another order -/

theorem Lists.relists {l : List Path} (h : Lists fs extensions p l) (hfs : fs.Relists fs') :
    Lists fs' extensions p l := by
  have hfound := hfs.find p
  cases h with
  | directory hfind hfile hdirectory hsorted =>
    rw [hfind] at hfound
    generalize hfind' : fs'.find p = found at hfound
    obtain _ | hnode := hfound
    obtain ⟨entries', rfl⟩ := hnode.exists_eq_directory
    refine .directory hfind' (fun q => ?_) (fun steps below hat => ?_) hsorted
    · simp only [← hnode.file_iff]
      exact hfile q
    · obtain ⟨_, hat'⟩ := (hnode.directory_iff steps).2 ⟨below, hat⟩
      exact hdirectory steps _ hat'
  | other hother =>
    refine .other fun entries hfind' => ?_
    rw [hfind'] at hfound
    generalize hfind : fs.find p = found at hfound hother
    obtain _ | hnode := hfound
    obtain ⟨entries', rfl⟩ := hnode.symm.exists_eq_directory
    exact hother entries' rfl

/-- What a path stands for does not depend on the order in which directories are listed. -/
theorem filesFor_eq_of_relists (hfs : fs.NamesApart) (h : fs.Relists fs')
    (extensions : List String) (p : Path) :
    filesFor fs' extensions p = filesFor fs extensions p :=
  (lists_filesFor h.right extensions p).unique ((lists_filesFor hfs extensions p).relists h)

theorem canExamine_eq_of_relists (h : fs.Relists fs') (p : Path) :
    fs'.canExamine p = fs.canExamine p := by
  have hfound := h.find p
  unfold FileSystem.canExamine
  generalize fs.find p = found, fs'.find p = found' at hfound
  obtain fault | hnode := hfound
  · rfl
  · next node other =>
    cases node with
    | file bytes => rw [hnode.eq_file]
    | directory entries =>
      obtain ⟨entries', rfl⟩ := hnode.exists_eq_directory
      have hmem (steps : List String) :
          steps ∈ directoriesBelow entries' ++ filesBelow entries' ↔
            steps ∈ directoriesBelow entries ++ filesBelow entries := by
        rw [List.mem_append, List.mem_append, Node.mem_directoriesBelow_iff,
          Node.mem_directoriesBelow_iff, hnode.directory_iff]
        show _ ∨ steps ∈ (Node.directory entries').files ↔
          _ ∨ steps ∈ (Node.directory entries).files
        simp only [Node.mem_files_iff, hnode.file_iff]
      rw [Bool.eq_iff_iff]
      simp only [List.all_eq_true, hmem]

/-! ### Lists of arguments -/

/-- The lists are what the walk gives for each of the arguments. -/
def ListsEach (fs : FileSystem) (extensions arguments : List String) (lists : List (List Path)) :
    Prop :=
  List.Forall₂ (fun a l => Lists fs extensions (Path.ofString a) l) arguments lists

theorem listsEach_filesFor (hfs : fs.NamesApart) (extensions arguments : List String) :
    ListsEach fs extensions arguments
      (arguments.map fun a => filesFor fs extensions (Path.ofString a)) := by
  rw [ListsEach, List.forall₂_map_right_iff, List.forall₂_same]
  exact fun a _ => lists_filesFor hfs extensions _

theorem ofArguments_eq_of_canExamine (extensions : List String)
    (h : ∀ a ∈ arguments, fs.canExamine (Path.ofString a) = true) :
    ofArguments fs extensions arguments =
      { paths := arguments.flatMap fun a => filesFor fs extensions (Path.ofString a) } := by
  have happend := ofArguments_append extensions h []
  rw [List.append_nil] at happend
  rw [happend, ofArguments_nil, List.append_nil]

/-- A walk gives the lists of its arguments one after the other, whatever the order in which
directories are listed.  It stops at the first argument that cannot be examined, of which it gives
the first paths at most. -/
theorem ofArguments_lists (hfs : fs.NamesApart) (extensions arguments : List String) :
    ((∀ a ∈ arguments, fs.canExamine (Path.ofString a) = true) →
      (∃ lists, ListsEach fs extensions arguments lists ∧
        ofArguments fs extensions arguments = { paths := lists.flatten }) ∧
      ∀ fs', fs.Relists fs' →
        ofArguments fs' extensions arguments = ofArguments fs extensions arguments) ∧
    ∀ before a after, arguments = before ++ a :: after →
      (∀ b ∈ before, fs.canExamine (Path.ofString b) = true) →
      fs.canExamine (Path.ofString a) = false →
        ∃ lists l first name, ListsEach fs extensions before lists ∧
          Lists fs extensions (Path.ofString a) l ∧ first <+: l ∧
          ofArguments fs extensions arguments =
            { paths := lists.flatten ++ first, error? := some (.nameTooLong name) } := by
  refine ⟨fun h => ⟨⟨_, listsEach_filesFor hfs extensions arguments, ?_⟩, fun fs' hfs' => ?_⟩, ?_⟩
  · rw [ofArguments_eq_of_canExamine extensions h, List.flatMap_def]
  · have h' : ∀ a ∈ arguments, fs'.canExamine (Path.ofString a) = true := fun a ha => by
      rw [canExamine_eq_of_relists hfs', h a ha]
    simp only [ofArguments_eq_of_canExamine extensions h,
      ofArguments_eq_of_canExamine extensions h', filesFor_eq_of_relists hfs hfs']
  · rintro before a after rfl hbefore ha
    obtain ⟨name, herror⟩ := exists_ofPath_error? extensions ha
    refine ⟨_, _, _, name, listsEach_filesFor hfs extensions before,
      lists_filesFor hfs extensions _, paths_ofPath_isPrefix fs extensions _, ?_⟩
    rw [ofArguments_append extensions hbefore, ofArguments_cons, append_of_error?_eq_some herror,
      List.flatMap_def]
    simp only [herror]

/-- The entries of a directory, not in the order of the components below it. -/
def nestedEntries : List (String × Node) :=
  [("a-b", .directory [("x.mpx", .file [])]), ("n.txt", .file []),
    ("a", .directory [("b.mpx", .file [])])]

/-- A directory with the entries below another one. -/
def nested (entries : List (String × Node)) : FileSystem where
  here := .directory [("d", .directory entries)]

theorem namesApart_nested : (nested nestedEntries).NamesApart where
  here := by
    simp [nested, nestedEntries, Node.namesApart_directory_iff, Node.namesApart_file]
  around := List.forall_mem_nil _

theorem relists_nested {entries' : List (String × Node)} (h : nestedEntries.Perm entries') :
    (nested nestedEntries).Relists (nested entries') where
  here := by
    have hentries : (Node.directory nestedEntries).NamesApart :=
      namesApart_nested.here.of_mem (List.mem_singleton_self _)
    obtain ⟨hnames, hapart⟩ := Node.namesApart_directory_iff.1 hentries
    have hbelow : (Node.directory nestedEntries).Relists (.directory entries') := by
      refine Node.relists_directory hnames h (List.forall₂_same.2 fun e he => ⟨rfl, ?_⟩)
      exact .refl (hapart e (h.mem_iff.2 he))
    exact Node.relists_directory (by simp) (.refl _) (.cons ⟨rfl, hbelow⟩ .nil)
  around := .nil

theorem ofArguments_lists_nested :
    (∃ lists, ListsEach (nested nestedEntries) [".mpx"] ["d", "gone"] lists ∧
      ofArguments (nested nestedEntries) [".mpx"] ["d", "gone"] = { paths := lists.flatten }) ∧
    ofArguments (nested nestedEntries.reverse) [".mpx"] ["d", "gone"] =
      ofArguments (nested nestedEntries) [".mpx"] ["d", "gone"] := by
  obtain ⟨hlists, hrelists⟩ :=
    (ofArguments_lists namesApart_nested [".mpx"] ["d", "gone"]).1 (by decide)
  exact ⟨hlists, hrelists _ (relists_nested (List.reverse_perm _).symm)⟩

/-- A path that is too long to be looked up is not given. -/
theorem not_ofArguments_lists :
    ¬ ∀ (fs : FileSystem) (extensions arguments : List String), fs.NamesApart →
      ∃ lists, ListsEach fs extensions arguments lists ∧
        ofArguments fs extensions arguments = { paths := lists.flatten } := by
  intro h
  obtain ⟨lists, -, hlists⟩ := h _ [".mpx"] [Command.repeated 256] namesApart_nested
  have hlong : (nested nestedEntries).canExamine (Path.ofString (Command.repeated 256)) = false :=
    Command.canExamine_repeated rfl
  obtain ⟨name, hname⟩ := exists_ofPath_error? [".mpx"] hlong
  rw [ofArguments_singleton] at hlists
  rw [hlists] at hname
  cases hname

end Walk

end ScriptBlocks
