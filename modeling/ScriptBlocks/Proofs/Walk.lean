import ScriptBlocks.Proofs.Naming

/-!
# What arguments stand for

An argument can be examined if it can be looked up and so can all paths below it
(`FileSystem.canExamine`).  A walk gives all files that such an argument stands for
(`Walk.ofPath_eq`), and stops at the first argument of another kind (`Walk.exists_ofPath_error?`).
-/

namespace ScriptBlocks

/-- Whether a path can be looked up and, if it leads to a directory, all paths below it. -/
def FileSystem.canExamine (fs : FileSystem) (p : Path) : Bool :=
  match fs.find p with
  | .error fault => fault != .nameTooLong
  | .ok (.file _) => true
  | .ok (.directory entries) =>
    (directoriesBelow entries ++ filesBelow entries).all fun steps => !isTooLong (p.extend steps)

/-- A name with more bytes than a step can have cannot be looked up. -/
theorem FileSystem.canExamine_eq_false {fs : FileSystem} {entries : List (String × Node)}
    {name : String} (hhere : fs.here = .directory entries) (hname : IsStep name)
    (hup : name ≠ "..") (hlong : maxStepBytes < name.utf8ByteSize) :
    fs.canExamine (Path.ofString name) = false := by
  have hfind : fs.find (Path.ofString name) = .error .nameTooLong := by
    have hp : (Path.ofString name).WellFormed := Path.wellFormed_ofString hname.nul_notMem
    have hnul : (Path.ofString name).toString.toList.contains '\x00' = false := by
      simpa using Path.nul_notMem_toString hp
    rw [find, hnul, if_neg Bool.false_ne_true]
    split
    · rfl
    · rw [Path.ofString_eq_of_isStep hname, if_pos rfl, hhere]
      simp only [follow, if_neg hup, if_pos hlong]
  rw [canExamine, hfind]
  rfl

/-- The paths of the files that a path stands for: itself, unless it leads to a directory. -/
def Walk.filesFor (fs : FileSystem) (extensions : List String) (p : Path) : List Path :=
  match fs.find p with
  | .ok (.directory entries) => (filesOf p entries).filter (picksUp extensions)
  | _ => [p]

namespace Walk

section

variable {fs : FileSystem} {extensions arguments : List String} {p q : Path} {paths : List Path}
  {first second : Walk}

theorem append_of_error?_eq_some {error : FileError} (h : first.error? = some error) :
    first ++ second = first := by
  show append first second = first
  rw [append, h]

theorem append_of_error?_eq_none (h : first.error? = none) :
    first ++ second = { second with paths := first.paths ++ second.paths } := by
  show append first second = _
  rw [append, h]

theorem append_empty (walk : Walk) : walk ++ ({} : Walk) = walk := by
  rcases h : walk.error? with _ | error
  · rw [append_of_error?_eq_none h]
    simp [← h]
  · exact append_of_error?_eq_some h

theorem append_assoc (first second third : Walk) :
    first ++ second ++ third = first ++ (second ++ third) := by
  rcases hfirst : first.error? with _ | error
  · rcases hsecond : second.error? with _ | error
    · have hboth : (first ++ second).error? = none := by
        rw [append_of_error?_eq_none hfirst, hsecond]
      rw [append_of_error?_eq_none hboth, append_of_error?_eq_none hfirst,
        append_of_error?_eq_none hfirst, append_of_error?_eq_none hsecond]
      simp
    · have hboth : (first ++ second).error? = some error := by
        rw [append_of_error?_eq_none hfirst, hsecond]
      rw [append_of_error?_eq_some hboth, append_of_error?_eq_some hsecond]
  · have hboth : (first ++ second).error? = some error := by
      rw [append_of_error?_eq_some hfirst, hfirst]
    rw [append_of_error?_eq_some hboth, append_of_error?_eq_some hfirst,
      append_of_error?_eq_some hfirst]

theorem error?_append_eq_none_iff :
    (first ++ second).error? = none ↔ first.error? = none ∧ second.error? = none := by
  rcases hfirst : first.error? with _ | error
  · simp [append_of_error?_eq_none hfirst]
  · simp [append_of_error?_eq_some hfirst, hfirst]

theorem tooLong?_eq_none (h : ∀ q ∈ paths, FileSystem.isTooLong q = false) :
    tooLong? paths = none := by
  rw [tooLong?, Option.map_eq_none_iff, List.find?_eq_none]
  intro q hq
  simp [h q hq]

theorem exists_tooLong? (hq : q ∈ paths) (h : FileSystem.isTooLong q = true) :
    ∃ name, tooLong? paths = some (.nameTooLong name) := by
  rcases hfind : paths.find? FileSystem.isTooLong with _ | long
  · exact absurd h (List.find?_eq_none.1 hfind q hq)
  · exact ⟨long.toString, by rw [tooLong?, hfind]; rfl⟩

theorem mem_filesOf_iff {entries : List (String × Node)} :
    q ∈ filesOf p entries ↔ ∃ steps ∈ filesBelow entries, p.extend steps = q := by
  rw [filesOf, List.mem_mergeSort, List.mem_map]

/-- If no path below a directory is too long, all files that are picked up there are given. -/
theorem below_eq {entries : List (String × Node)}
    (h : ∀ steps ∈ directoriesBelow entries ++ filesBelow entries,
      FileSystem.isTooLong (p.extend steps) = false) :
    below extensions p entries =
      { paths := (filesOf p entries).filter (picksUp extensions) } := by
  have hdirectories : tooLong? ((directoriesBelow entries).map p.extend) = none := by
    apply tooLong?_eq_none
    intro q hq
    obtain ⟨steps, hsteps, rfl⟩ := List.mem_map.1 hq
    exact h steps (List.mem_append_left _ hsteps)
  have hfiles : ∀ q ∈ filesOf p entries, FileSystem.isTooLong q = false := by
    intro q hq
    obtain ⟨steps, hsteps, rfl⟩ := mem_filesOf_iff.1 hq
    exact h steps (List.mem_append_right _ hsteps)
  have hall : (filesOf p entries ++ []).takeWhile (!FileSystem.isTooLong ·) =
      filesOf p entries ++ [] :=
    List.takeWhile_append_of_pos fun q hq => by rw [hfiles q hq, Bool.not_false]
  rw [below, hdirectories]
  rw [List.append_nil] at hall
  simp only [hall, tooLong?_eq_none hfiles]

/-- If a path below a directory is too long, the walk stops with an error. -/
theorem exists_below_error? {entries : List (String × Node)} {steps : List String}
    (hsteps : steps ∈ directoriesBelow entries ++ filesBelow entries)
    (h : FileSystem.isTooLong (p.extend steps) = true) :
    ∃ name, (below extensions p entries).error? = some (.nameTooLong name) := by
  rw [below]
  rcases hdirectories : tooLong? ((directoriesBelow entries).map p.extend) with _ | error
  · rcases List.mem_append.1 hsteps with hsteps | hsteps
    · obtain ⟨name, hname⟩ := exists_tooLong? (List.mem_map_of_mem hsteps) h
      rw [hdirectories] at hname
      cases hname
    · exact exists_tooLong? (mem_filesOf_iff.2 ⟨steps, hsteps, rfl⟩) h
  · obtain ⟨long, -, hlong⟩ := Option.map_eq_some_iff.1 hdirectories
    exact ⟨long.toString, congrArg some hlong.symm⟩

/-- The paths that one path stands for, by what the path leads to. -/
theorem ofPath_eq_match (fs : FileSystem) (extensions : List String) (p : Path) :
    ofPath fs extensions p =
      match fs.find p with
      | .error .nameTooLong => { error? := some (.nameTooLong p.toString) }
      | .ok (.directory entries) => below extensions p entries
      | _ => { paths := [p] } := by
  unfold ofPath FileSystem.directory? FileSystem.find?
  rcases fs.find p with fault | node
  · cases fault <;> rfl
  · cases node <;> rfl

/-- What an argument that can be examined stands for is all given. -/
theorem ofPath_eq (h : fs.canExamine p = true) :
    ofPath fs extensions p = { paths := filesFor fs extensions p } := by
  unfold FileSystem.canExamine at h
  rw [ofPath_eq_match, filesFor]
  generalize fs.find p = found at h ⊢
  rcases found with fault | node
  · cases fault <;> first | rfl | cases h
  · cases node with
    | file => rfl
    | directory entries =>
      apply below_eq
      simpa only [List.all_eq_true, Bool.not_eq_true'] using h

/-- An argument that cannot be examined ends the walk. -/
theorem exists_ofPath_error? (extensions : List String) (h : fs.canExamine p = false) :
    ∃ name, (ofPath fs extensions p).error? = some (.nameTooLong name) := by
  unfold FileSystem.canExamine at h
  rw [ofPath_eq_match]
  generalize fs.find p = found at h ⊢
  rcases found with fault | node
  · cases fault <;> first | exact ⟨_, rfl⟩ | cases h
  · cases node with
    | file => cases h
    | directory entries =>
      obtain ⟨steps, hsteps, hlong⟩ := List.all_eq_false.1 h
      exact exists_below_error? hsteps (by simpa using hlong)

@[simp] theorem ofArguments_nil (fs : FileSystem) (extensions : List String) :
    ofArguments fs extensions [] = {} := rfl

theorem ofArguments_cons (fs : FileSystem) (extensions : List String) (a : String)
    (arguments : List String) : ofArguments fs extensions (a :: arguments) =
      ofPath fs extensions (Path.ofString a) ++ ofArguments fs extensions arguments := rfl

theorem ofArguments_singleton (fs : FileSystem) (extensions : List String) (a : String) :
    ofArguments fs extensions [a] = ofPath fs extensions (Path.ofString a) := append_empty _

/-- Lists of arguments that are put together are walked one after the other. -/
theorem ofArguments_append_eq (fs : FileSystem) (extensions arguments rest : List String) :
    ofArguments fs extensions (arguments ++ rest) =
      ofArguments fs extensions arguments ++ ofArguments fs extensions rest := by
  induction arguments with
  | nil =>
    rw [ofArguments_nil, append_of_error?_eq_none rfl]
    rfl
  | cons a arguments ih =>
    rw [List.cons_append, ofArguments_cons, ofArguments_cons, ih, append_assoc]

/-- A walk that does not stop gives all that each of its arguments stands for. -/
theorem mem_ofArguments {a : String} (h : (ofArguments fs extensions arguments).error? = none)
    (ha : a ∈ arguments) (hq : q ∈ (ofPath fs extensions (Path.ofString a)).paths) :
    q ∈ (ofArguments fs extensions arguments).paths := by
  induction arguments with
  | nil => cases ha
  | cons b arguments ih =>
    rw [ofArguments_cons, error?_append_eq_none_iff] at h
    rw [ofArguments_cons, append_of_error?_eq_none h.1]
    rcases List.mem_cons.1 ha with rfl | ha
    · exact List.mem_append_left _ hq
    · exact List.mem_append_right _ (ih h.2 ha)

theorem ofArguments_append (extensions : List String)
    (h : ∀ a ∈ arguments, fs.canExamine (Path.ofString a) = true) (rest : List String) :
    ofArguments fs extensions (arguments ++ rest) =
      { ofArguments fs extensions rest with
        paths := arguments.flatMap (fun a => filesFor fs extensions (Path.ofString a)) ++
          (ofArguments fs extensions rest).paths } := by
  induction arguments with
  | nil => rfl
  | cons a arguments ih =>
    rw [List.cons_append, ofArguments_cons, ofPath_eq (h a List.mem_cons_self),
      append_of_error?_eq_none rfl, ih fun b hb => h b (List.mem_cons_of_mem a hb),
      List.flatMap_cons, List.append_assoc]

/-- What is given of a path, be the walk stopped or not, comes first in what the path stands for. -/
theorem paths_ofPath_isPrefix (fs : FileSystem) (extensions : List String) (p : Path) :
    (ofPath fs extensions p).paths <+: filesFor fs extensions p := by
  rw [ofPath_eq_match, filesFor]
  generalize fs.find p = found
  rcases found with fault | bytes | entries
  · cases fault <;> first | exact List.nil_prefix | exact List.prefix_rfl
  · exact List.prefix_rfl
  · dsimp only
    rw [below]
    split
    · exact List.nil_prefix
    · exact (List.takeWhile_prefix _).filter _

theorem exists_of_mem_ofArguments (hq : q ∈ (ofArguments fs extensions arguments).paths) :
    ∃ a ∈ arguments, q ∈ filesFor fs extensions (Path.ofString a) := by
  induction arguments with
  | nil => cases hq
  | cons a arguments ih =>
    rw [ofArguments_cons] at hq
    have hmem : q ∈ (ofPath fs extensions (Path.ofString a)).paths ∨
        q ∈ (ofArguments fs extensions arguments).paths := by
      rcases herror : (ofPath fs extensions (Path.ofString a)).error? with _ | error
      · rw [append_of_error?_eq_none herror] at hq
        exact List.mem_append.1 hq
      · rw [append_of_error?_eq_some herror] at hq
        exact Or.inl hq
    rcases hmem with hmem | hmem
    · exact ⟨a, List.mem_cons_self, (paths_ofPath_isPrefix fs extensions _).subset hmem⟩
    · obtain ⟨b, hb, hmem⟩ := ih hmem
      exact ⟨b, List.mem_cons_of_mem a hb, hmem⟩

theorem wellFormed_of_mem_filesFor (hfs : fs.WellNamed) (hp : p.WellFormed)
    (hq : q ∈ filesFor fs extensions p) : q.WellFormed := by
  unfold filesFor at hq
  split at hq
  · next entries hfind =>
    obtain ⟨steps, hsteps, rfl⟩ := mem_filesOf_iff.1 (List.mem_filter.1 hq).1
    exact hp.extend (hfs.of_find hfind steps (List.mem_append_left _ hsteps))
  · rw [List.mem_singleton] at hq
    rwa [hq]

theorem wellFormed_of_mem_ofArguments (hfs : fs.WellNamed)
    (h : ∀ a ∈ arguments, '\x00' ∉ a.toList)
    (hq : q ∈ (ofArguments fs extensions arguments).paths) : q.WellFormed := by
  obtain ⟨a, ha, hq⟩ := exists_of_mem_ofArguments hq
  exact wellFormed_of_mem_filesFor hfs (Path.wellFormed_ofString (h a ha)) hq

end

end Walk

end ScriptBlocks
