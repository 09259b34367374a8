import ScriptBlocks.Extract
import ScriptBlocks.Proofs.Walk

/-!
# What is found in files

A file that can be read gives the scripts of its text, and one that cannot gives a line
(`Finding.scripts_of_read_ok`, `Finding.mem_notices_of_read_error`).  Neither keeps other files from
being read (`Extract.find_eq`), and the report has the scripts of each file by its own name
(`Findings.lookup_report`).
-/

namespace ScriptBlocks

/-! ### Reading -/

section

variable {fs : FileSystem} {extensions arguments : List String} {p : Path} {paths : List Path}
  {last? : Option FileError}

theorem FileSystem.follow_ne_embeddedNul (here : Node) (around : List Node)
    (steps : List String) : follow here around steps ≠ .error .embeddedNul := by
  fun_induction follow here around steps with
  | case1 | case2 | case5 | case6 => simp
  | case3 _ _ ih | case4 _ _ _ _ ih => exact ih
  | case7 _ _ _ _ _ _ _ _ ih => exact ih

theorem FileSystem.find_ne_embeddedNul (hp : p.WellFormed) :
    fs.find p ≠ .error .embeddedNul := by
  have hnul : p.toString.toList.contains '\x00' = false := by
    simpa using Path.nul_notMem_toString hp
  unfold find
  rw [hnul, if_neg Bool.false_ne_true]
  split
  · simp
  split
  · exact follow_ne_embeddedNul _ _ _
  · exact follow_ne_embeddedNul _ _ _

theorem FileSystem.find_of_read_ok {bytes : List UInt8} (h : fs.read p = .ok bytes) :
    fs.find p = .ok (.file bytes) := by
  unfold read at h
  split at h
  · cases h
  · cases h
  · next hfind =>
    cases h
    exact hfind

theorem TextFile.read_ne_embeddedNul (hp : p.WellFormed) :
    TextFile.read fs p ≠ .error (.file .embeddedNul) := by
  unfold TextFile.read FileSystem.read
  rcases hfind : fs.find p with fault | node
  · cases fault with
    | embeddedNul => exact absurd hfind (FileSystem.find_ne_embeddedNul hp)
    | notFound | notDirectory | nameTooLong => simp [PathFault.toError]
  · cases node with
    | directory => simp
    | file bytes =>
      unfold TextFile.textOfBytes
      dsimp only
      split <;> simp

end

namespace Finding

section

variable {fs : FileSystem} {p : Path} {text : List Char} {error : TextFile.ReadError}

theorem result_of_read_ok (h : TextFile.read fs p = .ok text) :
    (ofPath fs p).result = .ok (Scan.passes text Resolver.known {}) := by
  rw [ofPath, h]
  rfl

theorem result_eq_error_iff :
    (ofPath fs p).result = .error error ↔ TextFile.read fs p = .error error := by
  unfold ofPath
  rcases TextFile.read fs p with cause | text
  · simp [Except.map]
  · simp [Except.map]

theorem isFailure_iff :
    (ofPath fs p).isFailure = true ↔ ∃ error, TextFile.read fs p = .error error := by
  unfold isFailure
  rcases hread : TextFile.read fs p with error | text
  · rw [result_eq_error_iff.2 hread]
    exact ⟨fun _ => ⟨error, rfl⟩, fun _ => rfl⟩
  · rw [result_of_read_ok hread]
    simp [Except.isOk, Except.toBool]

theorem isFailure_of_read_ok (h : TextFile.read fs p = .ok text) :
    (ofPath fs p).isFailure = false := by
  rw [isFailure, result_of_read_ok h]
  rfl

theorem scripts_of_read_ok (h : TextFile.read fs p = .ok text) :
    (ofPath fs p).scripts = parse (String.ofList text) := by
  rw [scripts, result_of_read_ok h, parse, String.toList_ofList]

theorem scripts_of_read_source {source : String} (h : TextFile.read fs p = .ok source.toList) :
    (ofPath fs p).scripts = parse source := by
  rw [scripts_of_read_ok h, String.ofList_toList]

theorem exists_text_of_mem_scripts {s : Script} (h : s ∈ (ofPath fs p).scripts) :
    ∃ text, TextFile.read fs p = .ok text ∧ s ∈ parse (String.ofList text) := by
  rcases hread : TextFile.read fs p with error | text
  · rw [scripts, result_eq_error_iff.2 hread] at h
    cases h
  · rw [scripts_of_read_ok hread] at h
    exact ⟨text, rfl, h⟩

theorem mem_notices_of_read_error (level : Level) (h : TextFile.read fs p = .error error) :
    s!"{p.toString}: {error.message}" ∈ (ofPath fs p).notices level := by
  rw [notices, result_eq_error_iff.2 h]
  exact List.mem_singleton_self _

end

end Finding

/-! ### All files -/

namespace Extract

section

variable {fs : FileSystem} {extensions arguments : List String} {paths : List Path}
  {last? : Option FileError}

theorem readAll_cons_of_ne {p : Path}
    (h : (Finding.ofPath fs p).result ≠ .error (.file .embeddedNul)) :
    readAll fs last? (p :: paths) =
      { readAll fs last? paths with
        files := Finding.ofPath fs p :: (readAll fs last? paths).files } := by
  rw [readAll]
  split
  · contradiction
  · rfl

theorem readAll_cons_of_eq {p : Path}
    (h : (Finding.ofPath fs p).result = .error (.file .embeddedNul)) :
    readAll fs last? (p :: paths) = { files := [], error? := some .embeddedNul } := by
  rw [readAll, h]

theorem exists_ofPath_of_mem_readAll {f : Finding} (h : f ∈ (readAll fs last? paths).files) :
    ∃ p ∈ paths, f = Finding.ofPath fs p := by
  induction paths with
  | nil => cases h
  | cons p rest ih =>
    by_cases hresult : (Finding.ofPath fs p).result = .error (.file .embeddedNul)
    · rw [readAll_cons_of_eq hresult] at h
      cases h
    · rw [readAll_cons_of_ne hresult] at h
      rcases List.mem_cons.1 h with rfl | h
      · exact ⟨p, List.mem_cons_self, rfl⟩
      · obtain ⟨q, hq, rfl⟩ := ih h
        exact ⟨q, List.mem_cons_of_mem p hq, rfl⟩

/-- No file that cannot be read keeps others from being read. -/
theorem readAll_eq (h : ∀ p ∈ paths, p.WellFormed) :
    readAll fs last? paths = { files := paths.map (Finding.ofPath fs), error? := last? } := by
  induction paths with
  | nil => rfl
  | cons p rest ih =>
    have hresult : (Finding.ofPath fs p).result ≠ .error (.file .embeddedNul) := fun hresult =>
      TextFile.read_ne_embeddedNul (h p List.mem_cons_self) (Finding.result_eq_error_iff.1 hresult)
    rw [readAll_cons_of_ne hresult, ih fun q hq => h q (List.mem_cons_of_mem p hq)]
    rfl

theorem error?_readAll_cons (p : Path) :
    (readAll fs last? (p :: paths)).error? = none ↔
      (Finding.ofPath fs p).result ≠ .error (.file .embeddedNul) ∧
        (readAll fs last? paths).error? = none := by
  by_cases hresult : (Finding.ofPath fs p).result = .error (.file .embeddedNul)
  · simp [readAll_cons_of_eq hresult, hresult]
  · simp [readAll_cons_of_ne hresult, hresult]

/-- Reading that does not break off has read all files. -/
theorem readAll_of_error?_eq_none (h : (readAll fs last? paths).error? = none) :
    last? = none ∧ (readAll fs last? paths).files = paths.map (Finding.ofPath fs) := by
  induction paths with
  | nil => exact ⟨h, rfl⟩
  | cons p rest ih =>
    obtain ⟨hresult, hrest⟩ := (error?_readAll_cons p).1 h
    obtain ⟨hlast, hfiles⟩ := ih hrest
    rw [readAll_cons_of_ne hresult, hfiles]
    exact ⟨hlast, rfl⟩

theorem readAll_append (h : (readAll fs none paths).error? = none) (rest : List Path) :
    readAll fs last? (paths ++ rest) =
      { readAll fs last? rest with
        files := paths.map (Finding.ofPath fs) ++ (readAll fs last? rest).files } := by
  induction paths with
  | nil => rfl
  | cons p paths ih =>
    obtain ⟨hresult, hrest⟩ := (error?_readAll_cons p).1 h
    rw [List.cons_append, readAll_cons_of_ne hresult, ih hrest]
    rfl

theorem result_ne_of_mem (h : (readAll fs last? paths).error? = none) {p : Path} (hp : p ∈ paths) :
    (Finding.ofPath fs p).result ≠ .error (.file .embeddedNul) := by
  induction paths with
  | nil => cases hp
  | cons q rest ih =>
    obtain ⟨hresult, hrest⟩ := (error?_readAll_cons q).1 h
    rcases List.mem_cons.1 hp with rfl | hp
    · exact hresult
    · exact ih hrest hp

/-- A search that does not break off has found all files that its arguments stand for. -/
theorem find_of_error?_eq_none (h : (find fs extensions arguments).error? = none) :
    (Walk.ofArguments fs extensions arguments).error? = none ∧
      find fs extensions arguments =
        { files := (Walk.ofArguments fs extensions arguments).paths.map (Finding.ofPath fs) } := by
  obtain ⟨hwalk, hfiles⟩ := readAll_of_error?_eq_none h
  refine ⟨hwalk, ?_⟩
  rw [← hfiles, ← h]
  rfl

/-- No argument with a NUL is among those of a search that does not break off. -/
theorem nul_notMem_of_error?_eq_none (h : (find fs extensions arguments).error? = none)
    {a : String} (ha : a ∈ arguments) : '\x00' ∉ a.toList := by
  intro hnul
  have hfind : fs.find (Path.ofString a) = .error .embeddedNul := by
    rw [FileSystem.find, if_pos]
    simpa using Path.nul_mem_toString_ofString hnul
  have hmem : Path.ofString a ∈ (Walk.ofArguments fs extensions arguments).paths := by
    apply Walk.mem_ofArguments (find_of_error?_eq_none h).1 ha
    rw [Walk.ofPath_eq_match, hfind]
    exact List.mem_singleton_self _
  apply result_ne_of_mem h hmem
  rw [Finding.result_eq_error_iff, TextFile.read, FileSystem.read, hfind]
  rfl

theorem wellFormed_of_error?_eq_none (hfs : fs.WellNamed)
    (h : (find fs extensions arguments).error? = none) {q : Path}
    (hq : q ∈ (Walk.ofArguments fs extensions arguments).paths) : q.WellFormed :=
  Walk.wellFormed_of_mem_ofArguments hfs (fun _ ha => nul_notMem_of_error?_eq_none h ha) hq

/-- What is found under lists of arguments that are put together is found one after the other. -/
theorem find_append (h : (find fs extensions arguments).error? = none) (rest : List String) :
    find fs extensions (arguments ++ rest) =
      { find fs extensions rest with
        files := (find fs extensions arguments).files ++ (find fs extensions rest).files } := by
  obtain ⟨hwalk, hfind⟩ := find_of_error?_eq_none h
  rw [hfind, find, Walk.ofArguments_append_eq, Walk.append_of_error?_eq_none hwalk]
  simp only [find, hwalk] at h
  exact readAll_append h _

theorem find_eq (extensions : List String) (hfs : fs.WellNamed)
    (h : ∀ a ∈ arguments, '\x00' ∉ a.toList) :
    find fs extensions arguments =
      { files := (Walk.ofArguments fs extensions arguments).paths.map (Finding.ofPath fs)
        error? := (Walk.ofArguments fs extensions arguments).error? } :=
  readAll_eq fun _ hq => Walk.wellFormed_of_mem_ofArguments hfs h hq

end

end Extract

/-! ### Views -/

namespace Findings

section

variable {fs : FileSystem} {paths : List Path} {l : Findings} {name : String}
  {scripts : List Script}

/-- The status is one or zero, and one exactly if there is a file that cannot be read. -/
theorem status_cases (hfiles : l.files = paths.map (Finding.ofPath fs)) :
    l.status = 1 ∧ (∃ p ∈ paths, ∃ error, TextFile.read fs p = .error error) ∨
      l.status = 0 ∧ ∀ p ∈ paths, ∃ text, TextFile.read fs p = .ok text := by
  have hany : l.files.any Finding.isFailure = true ↔
      ∃ p ∈ paths, ∃ error, TextFile.read fs p = .error error := by
    rw [hfiles, List.any_map, List.any_eq_true]
    simp only [Function.comp_apply, Finding.isFailure_iff]
  by_cases hfailure : ∃ p ∈ paths, ∃ error, TextFile.read fs p = .error error
  · left
    exact ⟨if_pos (hany.2 hfailure), hfailure⟩
  · right
    refine ⟨if_neg (mt hany.1 hfailure), fun p hp => ?_⟩
    rcases hread : TextFile.read fs p with error | text
    · exact absurd ⟨p, hp, error, hread⟩ hfailure
    · exact ⟨text, rfl⟩

theorem lookup_foldl_put {files : List Finding} {report : Entries (List Script)}
    (h : ∀ f ∈ files, f.path.toString = name → f.scripts = scripts)
    (hname : (∃ f ∈ files, f.path.toString = name) ∨ report.lookup name = some scripts) :
    (files.foldl (fun report f => report.put f.path.toString f.scripts) report).lookup name =
      some scripts := by
  -- The report so far has the scripts already, or a file that is still to come gives them.
  induction files generalizing report with
  | nil =>
    rcases hname with ⟨f, hf, -⟩ | hname
    · cases hf
    · exact hname
  | cons f rest ih =>
    apply ih fun g hg => h g (List.mem_cons_of_mem f hg)
    rw [Entries.lookup_put]
    by_cases hf : name = f.path.toString
    · right
      rw [if_pos hf, h f List.mem_cons_self hf.symm]
    · rw [if_neg hf]
      rcases hname with ⟨g, hg, hgname⟩ | hname
      · rcases List.mem_cons.1 hg with rfl | hg
        · exact absurd hgname.symm hf
        · exact Or.inl ⟨g, hg, hgname⟩
      · exact Or.inr hname

/-- If different files have different names, the report has the scripts of each that can be read. -/
theorem lookup_report (hpaths : ∀ p ∈ paths, p.WellFormed) {p : Path} (hp : p ∈ paths)
    (hread : (Finding.ofPath fs p).isFailure = false)
    (hfiles : l.files = paths.map (Finding.ofPath fs)) :
    l.report.lookup p.toString = some (Finding.ofPath fs p).scripts := by
  apply lookup_foldl_put
  · intro f hf hname
    rw [hfiles] at hf
    obtain ⟨q, hq, rfl⟩ := List.mem_map.1 (List.mem_filter.1 hf).1
    have hpq : q = p := (Path.toString_inj (hpaths q hq) (hpaths p hp)).1 hname
    rw [hpq]
  · left
    refine ⟨Finding.ofPath fs p, List.mem_filter.2 ⟨?_, by rw [hread]; rfl⟩, rfl⟩
    rw [hfiles]
    exact List.mem_map_of_mem hp

end

end Findings

end ScriptBlocks
