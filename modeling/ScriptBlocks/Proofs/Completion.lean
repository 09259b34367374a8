import ScriptBlocks.Command
import ScriptBlocks.Proofs.Findings

/-!
# Runs that come to their end

A file that cannot be read does not end a run: it gives a line and the exit status one, and all
other files are scanned as if it were not there (`Command.Covers`).  That holds for every argument
that can be examined.  An argument that cannot, since it is too long or a path below it is, ends
the run where it stands (`Command.extract_covers_or_fails`).
-/

namespace ScriptBlocks

namespace Command

/-- A run that reads all the files at these paths and comes to its end.  Each file that cannot be
read has its line and all others are scanned, and the status tells whether there is one that cannot
be read. -/
structure Covers (fs : FileSystem) (json : Bool) (paths : List Path) (o : Outcome) : Prop where
  finished : o.ending = .finished 1 ∧ (∃ p ∈ paths, ∃ error, TextFile.read fs p = .error error) ∨
    o.ending = .finished 0 ∧ ∀ p ∈ paths, ∃ text, TextFile.read fs p = .ok text
  reported : ∃ lines, o.stderr = printed lines ∧ ∀ p ∈ paths, ∀ error,
    TextFile.read fs p = .error error → s!"{p.toString}: {error.message}" ∈ lines
  listed : json = false → o.stdout = printed (paths.flatMap fun p => (Finding.ofPath fs p).listing)
  inReport : json = true → ∃ report, o.stdout = printed [(Extract.reportJson report).render 0] ∧
    ∀ p ∈ paths, ∀ text, TextFile.read fs p = .ok text →
      report.lookup p.toString = some (parse (String.ofList text))

section

variable {fs : FileSystem} {settings : Settings} {arguments before after : List String}
  {a : String} {json : Bool} {paths : List Path} {error : FileError}

theorem covers_of_find_eq (hpaths : ∀ p ∈ paths, p.WellFormed)
    (h : Extract.find fs settings.extensions arguments =
      { files := paths.map (Finding.ofPath fs) }) :
    Covers fs json paths (extract fs settings arguments json) := by
  unfold extract
  rw [h]
  constructor
  · rcases Findings.status_cases (l := { files := paths.map (Finding.ofPath fs) }) rfl with
      ⟨hstatus, hread⟩ | ⟨hstatus, hread⟩
    · exact Or.inl ⟨congrArg Ending.finished hstatus, hread⟩
    · exact Or.inr ⟨congrArg Ending.finished hstatus, hread⟩
  · refine ⟨_, rfl, fun p hp error hread => ?_⟩
    exact List.mem_flatMap.2
      ⟨_, List.mem_map_of_mem hp, Finding.mem_notices_of_read_error _ hread⟩
  · rintro rfl
    exact congrArg printed (List.flatMap_map _ _ _)
  · rintro rfl
    refine ⟨_, rfl, fun p hp text hread => ?_⟩
    rw [← Finding.scripts_of_read_ok hread]
    apply Findings.lookup_report hpaths hp _ rfl
    rw [← Bool.not_eq_true, Finding.isFailure_iff, hread]
    simp

theorem ending_of_error?_eq_some (json : Bool)
    (h : (Extract.find fs settings.extensions arguments).error? = some error) :
    (extract fs settings arguments json).ending = .failed (.path error) ∧
      (json = true → (extract fs settings arguments json).stdout = "") := by
  unfold extract stdoutOf
  generalize Extract.find fs settings.extensions arguments = found at h
  obtain ⟨files, error?⟩ := found
  cases h
  refine ⟨rfl, ?_⟩
  rintro rfl
  rfl

theorem extract_congr (h : Walk.ofArguments fs settings.extensions before =
    Walk.ofArguments fs settings.extensions after) :
    extract fs settings before json = extract fs settings after json := by
  unfold extract Extract.find
  rw [h]

/-- A run over arguments that can all be examined covers all the files that they stand for.  One
over other arguments breaks off at the first that cannot be examined: it prints no report, and does
not look at what comes after it. -/
theorem extract_covers_or_fails (hfs : fs.WellNamed) (hnul : ∀ a ∈ arguments, '\x00' ∉ a.toList) :
    ((∀ a ∈ arguments, fs.canExamine (Path.ofString a) = true) →
      Covers fs json
        (arguments.flatMap fun a => Walk.filesFor fs settings.extensions (Path.ofString a))
        (extract fs settings arguments json)) ∧
    ∀ before a after, arguments = before ++ a :: after →
      (∀ b ∈ before, fs.canExamine (Path.ofString b) = true) →
      fs.canExamine (Path.ofString a) = false →
      (∃ name, (extract fs settings arguments json).ending = .failed (.path (.nameTooLong name))) ∧
        (json = true → (extract fs settings arguments json).stdout = "") ∧
        extract fs settings arguments json = extract fs settings (before ++ [a]) json := by
  have hfind := Extract.find_eq settings.extensions hfs hnul
  refine ⟨fun h => ?_, ?_⟩
  · have hwalk := Walk.ofArguments_append settings.extensions h []
    rw [List.append_nil] at hwalk
    apply covers_of_find_eq
    · intro q hq
      obtain ⟨a, ha, hq⟩ := List.mem_flatMap.1 hq
      exact Walk.wellFormed_of_mem_filesFor hfs (Path.wellFormed_ofString (hnul a ha)) hq
    · rw [hfind, hwalk]
      simp
  · rintro before a after rfl hbefore ha
    obtain ⟨name, hname⟩ := Walk.exists_ofPath_error? settings.extensions ha
    -- From the argument on, the walk is that of the argument alone.
    have hstop (rest : List String) : Walk.ofArguments fs settings.extensions (a :: rest) =
        Walk.ofPath fs settings.extensions (Path.ofString a) := by
      rw [Walk.ofArguments_cons, Walk.append_of_error?_eq_some hname]
    have hwalk (rest : List String) :=
      Walk.ofArguments_append settings.extensions hbefore (a :: rest)
    have herror : (Extract.find fs settings.extensions (before ++ a :: after)).error? =
        some (.nameTooLong name) := by
      rw [hfind, hwalk, hstop, hname]
    obtain ⟨hending, hstdout⟩ := ending_of_error?_eq_some json herror
    refine ⟨⟨name, hending⟩, hstdout, extract_congr ?_⟩
    rw [hwalk, hwalk, hstop, hstop]

end

/-- Two files with a script, one of them in a directory, and a file that is no UTF-8. -/
def partlyReadable : FileSystem where
  here := .directory
    [("a.mpx", .file (Utf8.encode "<script>a</script>".toList)), ("bad.mpx", .file [0xFF]),
      ("d", .directory [("b.mpx", .file (Utf8.encode "<script>b</script>".toList))])]

/-- Arguments that name a missing file, a file that is no UTF-8, a path through a file, a directory
and a file. -/
def mixedArguments : List String := ["gone.mpx", "bad.mpx", "a.mpx/x", "d", "a.mpx"]

/-- The files that the arguments stand for. -/
def mixedFiles : List Path :=
  mixedArguments.flatMap fun a =>
    Walk.filesFor partlyReadable ({} : Settings).extensions (Path.ofString a)

theorem extract_covers_partlyReadable :
    mixedFiles = [⟨.relative, ["gone.mpx"]⟩, ⟨.relative, ["bad.mpx"]⟩, ⟨.relative, ["a.mpx", "x"]⟩,
        ⟨.relative, ["d", "b.mpx"]⟩, ⟨.relative, ["a.mpx"]⟩] ∧
      Covers partlyReadable true mixedFiles (extract partlyReadable {} mixedArguments true) := by
  have hfs : partlyReadable.WellNamed := by decide
  have hnul : ∀ a ∈ mixedArguments, '\x00' ∉ a.toList := by decide
  have hexamine : ∀ a ∈ mixedArguments, partlyReadable.canExamine (Path.ofString a) = true := by
    decide
  exact ⟨by with_unfolding_all decide, (extract_covers_or_fails hfs hnul).1 hexamine⟩

/-- A name of `n` times the same letter. -/
def repeated (n : Nat) : String := String.ofList (List.replicate n 'n')

theorem isStep_repeated {n : Nat} (h : 0 < n) : IsStep (repeated n) := by
  have hchars : (repeated n).toList = List.replicate n 'n' := String.toList_ofList
  have hhead : 'n' ∈ (repeated n).toList := by
    rw [hchars, List.mem_replicate]
    exact ⟨Nat.ne_of_gt h, rfl⟩
  have heq {c : Char} (hc : c ∈ (repeated n).toList) : c = 'n' :=
    List.eq_of_mem_replicate (hchars ▸ hc)
  constructor
  · intro hempty
    rw [hempty] at hhead
    cases hhead
  · intro hhere
    rw [hhere] at hhead
    exact absurd hhead (by decide)
  · exact fun hslash => absurd (heq hslash) (by decide)
  · exact fun hnul => absurd (heq hnul) (by decide)

/-- A name one letter too long cannot be looked up. -/
theorem canExamine_repeated {fs : FileSystem} {entries : List (String × Node)}
    (h : fs.here = .directory entries) : fs.canExamine (Path.ofString (repeated 256)) = false :=
  FileSystem.canExamine_eq_false h (isStep_repeated (by decide)) (by decide +kernel)
    (by decide +kernel)

/-- An argument that is too long ends the run, whatever comes after it. -/
theorem not_extract_finished :
    ¬ ∀ (fs : FileSystem) (settings : Settings) (arguments : List String) (json : Bool),
      fs.WellNamed → (∀ a ∈ arguments, '\x00' ∉ a.toList) →
        ∃ status, (extract fs settings arguments json).ending = .finished status := by
  intro h
  have hfs : partlyReadable.WellNamed := by decide
  have hnul : ∀ a ∈ [repeated 256, "a.mpx"], '\x00' ∉ a.toList := by
    intro a ha
    rcases List.mem_cons.1 ha with rfl | ha
    · exact (isStep_repeated (by decide)).nul_notMem
    · rw [List.mem_singleton.1 ha]
      decide
  have hlong : partlyReadable.canExamine (Path.ofString (repeated 256)) = false :=
    canExamine_repeated rfl
  obtain ⟨name, hname⟩ := Walk.exists_ofPath_error? ({} : Settings).extensions hlong
  have herror : (Extract.find partlyReadable ({} : Settings).extensions
      [repeated 256, "a.mpx"]).error? = some (.nameTooLong name) := by
    rw [Extract.find_eq _ hfs hnul, Walk.ofArguments_cons, Walk.append_of_error?_eq_some hname, hname]
  obtain ⟨status, hstatus⟩ := h partlyReadable {} [repeated 256, "a.mpx"] false hfs hnul
  rw [(ending_of_error?_eq_some false herror).1] at hstatus
  cases hstatus

end Command

end ScriptBlocks
