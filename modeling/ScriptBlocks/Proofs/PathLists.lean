import ScriptBlocks.Proofs.Completion
import ScriptBlocks.Proofs.Entries

/-!
# Lists of paths that are put together

A run over two lists of paths, one after the other, prints and logs what the runs over each of them
do, and its report is that of the first one updated with that of the second
(`Command.extract_append`).  So what is output for a path does not hang on the other paths.
-/

namespace ScriptBlocks

/-! ### Findings -/

namespace Findings

variable {found first second : Findings}

theorem report_eq (found : Findings) : found.report =
    Entries.update [] ((found.files.filter (!·.isFailure)).map fun f =>
      (f.path.toString, f.scripts)) := by
  rw [report, Entries.update, List.foldl_map]

theorem report_append (h : found.files = first.files ++ second.files) :
    found.report = Entries.update first.report second.report := by
  rw [report_eq found, h, List.filter_append, List.map_append, Entries.update_append,
    ← report_eq first, ← Entries.update_update_nil, ← report_eq second]

theorem listing_append (h : found.files = first.files ++ second.files) :
    found.listing = first.listing ++ second.listing := by
  rw [listing, h, List.flatMap_append, listing, listing]

theorem notices_append (level : Level) (h : found.files = first.files ++ second.files) :
    found.notices level = first.notices level ++ second.notices level := by
  rw [notices, h, List.flatMap_append, notices, notices]

theorem status_append (h : found.files = first.files ++ second.files) :
    found.status = max first.status second.status := by
  unfold status
  rw [h, List.any_append]
  by_cases hfirst : first.files.any Finding.isFailure <;>
    by_cases hsecond : second.files.any Finding.isFailure <;> simp [hfirst, hsecond]

end Findings

/-! ### Runs -/

namespace Command

theorem printed_append (lines more : List String) :
    printed (lines ++ more) = printed lines ++ printed more := by
  rw [printed, List.map_append, String.join_append, printed, printed]

section

variable {fs : FileSystem} {settings : Settings} {arguments before after : List String}
  {json : Bool} {m n : Nat}

/-- The report on what is found under arguments. -/
def reportOf (fs : FileSystem) (settings : Settings) (arguments : List String) :
    Entries (List Script) :=
  (Extract.find fs settings.extensions arguments).report

theorem ending_eq_finished_iff : (extract fs settings arguments json).ending = .finished n ↔
    (Extract.find fs settings.extensions arguments).error? = none ∧
      (Extract.find fs settings.extensions arguments).status = n := by
  unfold extract
  rcases herror : (Extract.find fs settings.extensions arguments).error? with _ | error
  · simp [herror]
  · simp [herror]

theorem stdout_of_finished (h : (extract fs settings arguments json).ending = .finished n) :
    (extract fs settings arguments json).stdout =
      if json then printed [(Extract.reportJson (reportOf fs settings arguments)).render 0]
      else printed (Extract.find fs settings.extensions arguments).listing := by
  obtain ⟨hnone, -⟩ := ending_eq_finished_iff.1 h
  unfold extract stdoutOf
  cases json <;> simp [hnone, reportOf]

/-- A run over two lists of paths does what the runs over the two lists do. -/
theorem extract_append (hbefore : (extract fs settings before json).ending = .finished m)
    (hafter : (extract fs settings after json).ending = .finished n) :
    (extract fs settings (before ++ after) json).ending = .finished (max m n) ∧
      (extract fs settings (before ++ after) json).stderr =
        (extract fs settings before json).stderr ++ (extract fs settings after json).stderr ∧
      (json = false → (extract fs settings (before ++ after) json).stdout =
        (extract fs settings before json).stdout ++ (extract fs settings after json).stdout) ∧
      (json = true →
        reportOf fs settings (before ++ after) =
            Entries.update (reportOf fs settings before) (reportOf fs settings after) ∧
          ∀ arguments ∈ [before, after, before ++ after],
            (extract fs settings arguments json).stdout =
              printed [(Extract.reportJson (reportOf fs settings arguments)).render 0]) := by
  obtain ⟨hfirst, rfl⟩ := ending_eq_finished_iff.1 hbefore
  obtain ⟨hsecond, rfl⟩ := ending_eq_finished_iff.1 hafter
  have hfind := Extract.find_append hfirst after
  have hfiles : (Extract.find fs settings.extensions (before ++ after)).files =
      (Extract.find fs settings.extensions before).files ++
        (Extract.find fs settings.extensions after).files := by rw [hfind]
  have hboth : (extract fs settings (before ++ after) json).ending =
      .finished (max (Extract.find fs settings.extensions before).status
        (Extract.find fs settings.extensions after).status) := by
    rw [ending_eq_finished_iff, ← Findings.status_append hfiles, hfind]
    exact ⟨hsecond, rfl⟩
  refine ⟨hboth, ?stderr, ?listing, ?report⟩
  case stderr =>
    show printed _ = printed _ ++ printed _
    rw [Findings.notices_append _ hfiles, printed_append]
  case listing =>
    rintro rfl
    rw [stdout_of_finished hboth, stdout_of_finished hbefore, stdout_of_finished hafter]
    simp only [Bool.false_eq_true, if_false, Findings.listing_append hfiles, printed_append]
  case report =>
    rintro rfl
    refine ⟨Findings.report_append hfiles, ?_⟩
    simp [stdout_of_finished hboth, stdout_of_finished hbefore, stdout_of_finished hafter]

end

/-- A file that is named in both lists, in two ways, and one that is missing. -/
theorem extract_append_twoSpellings :
    (extract partlyReadable {} ["d", "a.mpx"] true).ending = .finished 0 ∧
      (extract partlyReadable {} ["./d//b.mpx", "gone.mpx"] true).ending = .finished 1 ∧
      (extract partlyReadable {} ["d", "a.mpx", "./d//b.mpx", "gone.mpx"] true).ending =
        .finished (max 0 1) ∧
      reportOf partlyReadable {} ["d", "a.mpx", "./d//b.mpx", "gone.mpx"] =
        Entries.update (reportOf partlyReadable {} ["d", "a.mpx"])
          (reportOf partlyReadable {} ["./d//b.mpx", "gone.mpx"]) := by
  have hbefore : (extract partlyReadable {} ["d", "a.mpx"] true).ending = .finished 0 := by
    with_unfolding_all decide
  have hafter : (extract partlyReadable {} ["./d//b.mpx", "gone.mpx"] true).ending =
      .finished 1 := by with_unfolding_all decide
  obtain ⟨hending, -, -, hreport⟩ := extract_append hbefore hafter
  exact ⟨hbefore, hafter, hending, (hreport rfl).1⟩

end Command

end ScriptBlocks
