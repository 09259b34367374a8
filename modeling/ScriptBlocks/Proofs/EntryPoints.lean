import ScriptBlocks.Service
import ScriptBlocks.Proofs.FileRanges
import ScriptBlocks.Proofs.Listing

/-!
# The library, the service and the command

A document has the same scripts whether it is scanned as a text, sent to the service or read from a
file: in JSON they are those of `scriptsJson` (`entryPoints_agree`).  The service refuses a document
exactly if it has more bytes than its limit, and a limit from the environment takes all documents of
up to `Settings.leastMaxDocumentBytes` bytes.
-/

namespace ScriptBlocks

/-- The scripts of a document in JSON. -/
def scriptsJson (source : String) : Json := .array ((parse source).map Script.toJson)

/-! ### The service -/

namespace Service

variable {payload : Entries Sent} {source : String}

theorem answer_of_lookup (limit : Int) (h : payload.lookup "source" = some (.text source)) :
    answer limit payload =
      if limit < Utf8.size source.toList then
        .error (.tooLarge (Utf8.size source.toList) limit)
      else .ok ⟨(parse source).length, parse source⟩ := by
  rw [answer, sourceOf?, h]
  rfl

theorem answer_of_noSource (limit : Int) (h : ∀ s, payload.lookup "source" ≠ some (.text s)) :
    answer limit payload = .error .noSource := by
  have hsource : sourceOf? payload = none := by
    rw [sourceOf?]
    split
    · next s hs => exact absurd hs (h s)
    · rfl
  rw [answer, hsource]
  rfl

theorem toJson_extraction (source : String) :
    Extraction.toJson ⟨(parse source).length, parse source⟩ =
      .object [("count", .integer (parse source).length), ("scripts", scriptsJson source)] := rfl

theorem leastMaxDocumentBytes_le_limitOf (env : Environment) :
    Settings.leastMaxDocumentBytes ≤ limitOf none env := Int.le_max_left _ _

end Service

/-! ### Files -/

section

variable {fs : FileSystem} {settings : Settings} {extensions arguments : List String} {p : Path}
  {a source : String} {text : List Char}

/-- A file without carriage returns is read as the text that its bytes encode. -/
theorem TextFile.read_of_encode (hcr : '\r' ∉ text) (h : fs.read p = .ok (Utf8.encode text)) :
    TextFile.read fs p = .ok text :=
  read_eq_ok_iff.2 ⟨text, h, Text.unifyNewlines_eq_self hcr⟩

theorem Extract.find_file (h : TextFile.read fs (Path.ofString a) = .ok text) :
    find fs extensions [a] = { files := [Finding.ofPath fs (Path.ofString a)] } := by
  obtain ⟨raw, hbytes, -⟩ := read_eq_ok_iff.1 h
  have hwalk : Walk.ofArguments fs extensions [a] = { paths := [Path.ofString a] } := by
    rw [Walk.ofArguments_singleton, Walk.ofPath_eq_match, FileSystem.find_of_read_ok hbytes]
  rw [find, hwalk]
  simp [readAll, Finding.result_of_read_ok h]

/-- The report on one file has its scripts, and no file is missing from it. -/
theorem Command.extract_file (settings : Settings)
    (h : TextFile.read fs (Path.ofString a) = .ok source.toList) :
    (extract fs settings [a] true).ending = .finished 0 ∧
      reportOf fs settings [a] = [((Path.ofString a).toString, parse source)] := by
  have hsuccess := Finding.isFailure_of_read_ok h
  have hscripts := Finding.scripts_of_read_source h
  constructor
  · rw [ending_eq_finished_iff, Extract.find_file h]
    simp [Findings.status, hsuccess]
  · rw [reportOf, Extract.find_file h, Findings.report_eq,
      List.filter_cons_of_pos (by simp [hsuccess])]
    simp [hscripts, Entries.update, Entries.put]
    rfl

/-- The entry of a file in the report on any run has its scripts. -/
theorem Command.member?_report {n : Nat} (hfs : fs.WellNamed)
    (hending : (extract fs settings arguments true).ending = .finished n)
    (hp : p ∈ (Walk.ofArguments fs settings.extensions arguments).paths)
    (h : TextFile.read fs p = .ok source.toList) :
    (Extract.reportJson (reportOf fs settings arguments)).member? p.toString =
      some (scriptsJson source) := by
  have hnone := (ending_eq_finished_iff.1 hending).1
  have hread : fs.canRead p = true := by
    rw [FileSystem.canRead, h]
    rfl
  rw [Extract.member?_reportJson, lookup_reportOf hfs hnone (List.mem_filter.2 ⟨hp, hread⟩),
    Finding.scripts_of_read_source h]
  rfl

end

/-! ### Agreement -/

open Service Command

/-- A document has the same scripts at all entry points, and the service refuses exactly those that
have more bytes than its limit. -/
theorem entryPoints_agree (source : String) :
    (∀ (limit : Int) (payload : Entries Sent), payload.lookup "source" = some (.text source) →
      (statusOf (answer limit payload) = 413 ↔ limit < (Utf8.encode source.toList).length) ∧
      (¬ limit < (Utf8.encode source.toList).length →
        ∃ body, answer limit payload = .ok body ∧ statusOf (answer limit payload) = 200 ∧
          body.toJson =
            .object [("count", .integer (parse source).length), ("scripts", scriptsJson source)])) ∧
    (∀ (limit : Int) (payload : Entries Sent),
      (∀ s, payload.lookup "source" ≠ some (.text s)) → statusOf (answer limit payload) = 400) ∧
    (∀ (env : Environment) (payload : Entries Sent),
      payload.lookup "source" = some (.text source) →
      (Utf8.encode source.toList).length ≤ 1024 →
      statusOf (answer (limitOf none env) payload) = 200) ∧
    ('\r' ∉ source.toList → ∀ (fs : FileSystem) (settings : Settings),
      (∀ a, fs.read (Path.ofString a) = .ok (Utf8.encode source.toList) →
        (extract fs settings [a] true).ending = .finished 0 ∧
        (extract fs settings [a] true).stdout =
          printed [(Json.object [((Path.ofString a).toString, scriptsJson source)]).render 0]) ∧
      (fs.WellNamed → ∀ arguments n, (extract fs settings arguments true).ending = .finished n →
        ∀ p ∈ (Walk.ofArguments fs settings.extensions arguments).paths,
          fs.read p = .ok (Utf8.encode source.toList) →
          (Extract.reportJson (reportOf fs settings arguments)).member? p.toString =
            some (scriptsJson source))) := by
  rw [Utf8.length_encode]
  refine ⟨fun limit payload h => ?gate, fun limit payload h => ?noSource,
    fun env payload h hsize => ?least, fun hcr fs settings => ⟨fun a hread => ?file, ?run⟩⟩
  case gate =>
    rw [answer_of_lookup limit h]
    by_cases hlimit : limit < Utf8.size source.toList
    · simp [hlimit, statusOf, Refusal.status]
    · rw [if_neg hlimit]
      refine ⟨by simp [hlimit, statusOf], fun _ => ?_⟩
      exact ⟨_, rfl, rfl, toJson_extraction source⟩
  case noSource =>
    rw [answer_of_noSource limit h]
    rfl
  case least =>
    have hleast := leastMaxDocumentBytes_le_limitOf env
    have hlimit : ¬ limitOf none env < Utf8.size source.toList := by
      unfold Settings.leastMaxDocumentBytes at hleast
      omega
    rw [answer_of_lookup _ h, if_neg hlimit]
    rfl
  case file =>
    obtain ⟨hending, hreport⟩ := extract_file settings (TextFile.read_of_encode hcr hread)
    refine ⟨hending, ?_⟩
    rw [stdout_of_finished hending, hreport]
    rfl
  case run =>
    intro hfs arguments n hending p hp hread
    exact member?_report hfs hending hp (TextFile.read_of_encode hcr hread)

/-- A document of twenty bytes and nineteen characters. -/
def accented : String := "é<script>a</script>"

def accentedFile : FileSystem where
  here := .directory [("d", .directory [("a.mpx", .file (Utf8.encode accented.toList))])]

theorem entryPoints_agree_accented :
    statusOf (answer 19 [("source", .text accented)]) = 413 ∧
      statusOf (answer 20 [("source", .text accented)]) = 200 ∧
      statusOf (answer 20 [("source", .other)]) = 400 ∧
      statusOf (answer (limitOf none ⟨[("MPXSCAN_MAX_DOCUMENT_BYTES", "7")]⟩)
        [("source", .text accented)]) = 200 ∧
      (extract accentedFile {} ["./d/a.mpx"] true).ending = .finished 0 ∧
      (Extract.reportJson (reportOf accentedFile {} ["gone.mpx", "d"])).member? "d/a.mpx" =
        some (scriptsJson accented) := by
  have hfs : accentedFile.WellNamed := by decide
  have hcr : '\r' ∉ accented.toList := by decide
  have hread : accentedFile.read ⟨.relative, ["d", "a.mpx"]⟩ =
      .ok (Utf8.encode accented.toList) := by decide
  have hsame : Path.ofString "./d/a.mpx" = ⟨.relative, ["d", "a.mpx"]⟩ := by decide
  have hname : (⟨.relative, ["d", "a.mpx"]⟩ : Path).toString = "d/a.mpx" := by decide
  have hending : (extract accentedFile {} ["gone.mpx", "d"] true).ending = .finished 1 := by
    with_unfolding_all decide
  obtain ⟨hgate, hnoSource, hleast, hfile⟩ := entryPoints_agree accented
  obtain ⟨hone, hrun⟩ := hfile hcr accentedFile {}
  refine ⟨?_, ?_, ?_, ?_, ?_, ?_⟩
  · exact (hgate 19 _ rfl).1.2 (by decide)
  · obtain ⟨body, -, hstatus, -⟩ := (hgate 20 [("source", .text accented)] rfl).2 (by decide)
    exact hstatus
  · exact hnoSource 20 [("source", .other)] (by simp)
  · exact hleast _ _ rfl (by decide)
  · exact (hone "./d/a.mpx" (by rw [hsame, hread])).1
  · rw [← hname]
    exact hrun hfs _ 1 hending _ (by with_unfolding_all decide) hread

end ScriptBlocks
