import ScriptBlocks.Proofs.Entries
import ScriptBlocks.Proofs.Offsets
import ScriptBlocks.Proofs.PathLists

/-!
# The listing in the report

What a run lists can be read off its report: an entry of the report gives the line of a script
(`Extract.lineOf?`), and the files that can be read give the lines of their entries, each file as
often as it comes.  Beside that the two ways of output differ in nothing
(`Command.extract_modes_agree`).
-/

namespace ScriptBlocks

/-! ### Reading JSON -/

namespace Json

/-- The value of a name in an object. -/
def member? (name : String) : Json → Option Json
  | object members => members.lookup name
  | _ => none

/-- The names in an object, in their order. -/
def names : Json → List String
  | object members => Entries.names members
  | _ => []

def text? : Json → Option String
  | text s => some s
  | _ => none

def integer? : Json → Option Int
  | integer n => some n
  | _ => none

def items? : Json → Option (List Json)
  | array items => some items
  | _ => none

end Json

/-- The source type that a value of a report tells. -/
def SourceType.ofJson? (value : Json) : Option SourceType := do
  let language ← (← value.member? "language").text?
  let moduleKind ← (← value.member? "module_kind").text?
  let variant ← (← value.member? "variant").text?
  return ⟨Language.ofName language, ModuleKind.ofName moduleKind, Variant.ofName variant⟩

namespace Extract

/-- The line of the listing that an entry of a report tells, for a file at `path`. -/
def lineOf? (path : String) (entry : Json) : Option String := do
  let start ← (← entry.member? "start").integer?
  let stop ← (← entry.member? "end").integer?
  let sourceType ← SourceType.ofJson? (← entry.member? "source_type")
  return s!"{path}:{start}-{stop} {sourceType.label}"

/-- The lines of the listing for a file at `path`, one for each of its entries in a report. -/
def linesOf? (report : Json) (path : String) : Option (List String) := do
  (← (← report.member? path).items?).mapM (lineOf? path)

end Extract

/-! ### Source types -/

section

variable {text : String} {resolve : Resolver} {s : Script}

theorem exists_type_of_mem_parse (h : s ∈ parse text resolve) :
    ∃ token found, (resolve token).type? = some found ∧
      s.sourceType = Scan.typeFor token found := by
  rw [parse_eq] at h
  obtain ⟨tag, -, hs⟩ := List.mem_filterMap.1 h
  obtain ⟨token, found, angle, stop, hfate, hs⟩ := Scan.exists_fate_of_scriptAt_eq_some hs
  have htype : s.sourceType = Scan.typeFor token found := congrArg Script.sourceType hs
  cases Scan.fate_eq_iff.1 hfate with
  | block _ _ hfound _ => exact ⟨_, found, hfound, htype⟩

/-- The types of known tokens are told in JSON, also in the standard variant. -/
theorem SourceType.ofJson?_toJson_of_mem_registry :
    ∀ entry ∈ SourceType.registry, ∀ yes,
      ofJson? (entry.2.withStandard yes).toJson = some (entry.2.withStandard yes) := by
  decide

theorem SourceType.ofJson?_toJson_of_mem_parse (h : s ∈ parse text) :
    ofJson? s.sourceType.toJson = some s.sourceType := by
  obtain ⟨token, found, htype, hs⟩ := exists_type_of_mem_parse h
  have hmem : (token, found) ∈ SourceType.registry := by
    unfold Resolver.known SourceType.ofToken SourceType.ofToken? at htype
    rcases hlookup : SourceType.registry.lookup token with _ | type
    · rw [hlookup] at htype
      cases htype
    · rw [hlookup] at htype
      cases htype
      exact Entries.mem_of_lookup hlookup
  rw [hs, Scan.typeFor]
  exact ofJson?_toJson_of_mem_registry (token, found) hmem _

end

/-! ### Entries -/

theorem mapM_eq_some_map {α β : Type} {f : α → Option β} {g : α → β} {l : List α}
    (h : ∀ a ∈ l, f a = some (g a)) : l.mapM f = some (l.map g) := by
  induction l with
  | nil => rfl
  | cons a l ih =>
    have htail : l.mapM f = some (l.map g) := ih fun b hb => h b (List.mem_cons_of_mem a hb)
    simp [List.mapM_cons, h a List.mem_cons_self, htail]

namespace Extract

variable {fs : FileSystem} {report : Entries (List Script)} {p : Path} {path : String}
  {scripts : List Script}

theorem member?_reportJson (report : Entries (List Script)) (path : String) :
    (reportJson report).member? path =
      (report.lookup path).map fun scripts => .array (scripts.map Script.toJson) := by
  show List.lookup path _ = _
  induction report with
  | nil => rfl
  | cons entry report ih =>
    obtain ⟨name, scripts⟩ := entry
    rw [List.map_cons, List.lookup_cons, List.lookup_cons, ih]
    cases path == name <;> rfl

theorem names_reportJson (report : Entries (List Script)) :
    (reportJson report).names = Entries.names report := by
  show List.map Prod.fst (List.map _ report) = _
  rw [List.map_map]
  rfl

theorem lineOf?_toJson {s : Script} (h : SourceType.ofJson? s.sourceType.toJson = some s.sourceType) :
    lineOf? path s.toJson = some s!"{path}:{s.start}-{s.stop} {s.sourceType.label}" := by
  show (do
    let sourceType ← SourceType.ofJson? s.sourceType.toJson
    return s!"{path}:{s.start}-{s.stop} {sourceType.label}") = _
  rw [h]
  rfl

/-- The entries of a file that can be read tell what is listed for it. -/
theorem linesOf?_reportJson (h : report.lookup p.toString = some (Finding.ofPath fs p).scripts) :
    linesOf? (reportJson report) p.toString = some (Finding.ofPath fs p).listing := by
  have hlines : ((Finding.ofPath fs p).scripts.map Script.toJson).mapM (lineOf? p.toString) =
      some (Finding.ofPath fs p).listing := by
    rw [List.mapM_map]
    apply mapM_eq_some_map
    intro s hs
    obtain ⟨text, -, hs⟩ := Finding.exists_text_of_mem_scripts hs
    exact lineOf?_toJson (SourceType.ofJson?_toJson_of_mem_parse hs)
  rw [linesOf?, member?_reportJson, h]
  exact hlines

end Extract

/-! ### Runs -/

/-- Whether the path leads to a file that can be read as a text. -/
def FileSystem.canRead (fs : FileSystem) (p : Path) : Bool := (TextFile.read fs p).isOk

theorem Finding.isFailure_ofPath (fs : FileSystem) (p : Path) :
    (ofPath fs p).isFailure = !fs.canRead p := by
  unfold isFailure ofPath FileSystem.canRead
  cases TextFile.read fs p <;> rfl

theorem Finding.listing_of_isFailure {f : Finding} (h : f.isFailure = true) : f.listing = [] := by
  obtain ⟨path, result⟩ := f
  cases result with
  | ok => cases h
  | error => rfl

theorem Finding.flatMap_listing (fs : FileSystem) (paths : List Path) :
    (paths.map (ofPath fs)).flatMap listing =
      (paths.filter fs.canRead).flatMap fun p => (ofPath fs p).listing := by
  induction paths with
  | nil => rfl
  | cons p paths ih =>
    rw [List.map_cons, List.flatMap_cons, ih]
    by_cases hread : fs.canRead p = true
    · rw [List.filter_cons_of_pos hread, List.flatMap_cons]
    · have hfailure : (ofPath fs p).isFailure = true := by simp [isFailure_ofPath, hread]
      rw [List.filter_cons_of_neg hread, listing_of_isFailure hfailure, List.nil_append]

namespace Command

section

variable {fs : FileSystem} {settings : Settings} {arguments : List String} {json : Bool} {n : Nat}

/-- The paths that arguments stand for and that lead to files that can be read. -/
def readable (fs : FileSystem) (settings : Settings) (arguments : List String) : List Path :=
  (Walk.ofArguments fs settings.extensions arguments).paths.filter fs.canRead

theorem names_reportOf
    (h : (Extract.find fs settings.extensions arguments).error? = none) :
    Entries.names (reportOf fs settings arguments) =
      ((readable fs settings arguments).map Path.toString).eraseDups := by
  have hread : (fun f => !f.isFailure) ∘ Finding.ofPath fs = fs.canRead :=
    funext fun p => by simp [Finding.isFailure_ofPath]
  rw [reportOf, Findings.report_eq, Entries.names_update_nil,
    (Extract.find_of_error?_eq_none h).2, List.filter_map, hread]
  simp [Entries.names, readable, Function.comp_def, Finding.ofPath]

theorem lookup_reportOf (hfs : fs.WellNamed)
    (h : (Extract.find fs settings.extensions arguments).error? = none) {p : Path}
    (hp : p ∈ readable fs settings arguments) :
    (reportOf fs settings arguments).lookup p.toString = some (Finding.ofPath fs p).scripts := by
  obtain ⟨hmem, hread⟩ := List.mem_filter.1 hp
  apply Findings.lookup_report (fun q hq => Extract.wellFormed_of_error?_eq_none hfs h hq) hmem
  · simp [Finding.isFailure_ofPath, hread]
  · rw [(Extract.find_of_error?_eq_none h).2]

/-- The two ways of output agree: they end alike and log alike, and the report, whose names are the
paths of the files that can be read, tells all lines of the listing. -/
theorem extract_modes_agree (hfs : fs.WellNamed)
    (h : (extract fs settings arguments json).ending = .finished n) :
    (extract fs settings arguments true).ending = .finished n ∧
      (extract fs settings arguments false).ending = .finished n ∧
      (extract fs settings arguments true).stderr =
        (extract fs settings arguments false).stderr ∧
      (extract fs settings arguments true).stdout =
        printed [(Extract.reportJson (reportOf fs settings arguments)).render 0] ∧
      (Extract.reportJson (reportOf fs settings arguments)).names =
        ((readable fs settings arguments).map Path.toString).eraseDups ∧
      ∃ lines,
        (readable fs settings arguments).mapM (fun p =>
          Extract.linesOf? (Extract.reportJson (reportOf fs settings arguments)) p.toString) =
            some lines ∧
        (extract fs settings arguments false).stdout = printed lines.flatten := by
  obtain ⟨hnone, hstatus⟩ := ending_eq_finished_iff.1 h
  have hending (mode : Bool) : (extract fs settings arguments mode).ending = .finished n :=
    ending_eq_finished_iff.2 ⟨hnone, hstatus⟩
  refine ⟨hending true, hending false, rfl, ?stdout, ?names,
    (readable fs settings arguments).map fun p => (Finding.ofPath fs p).listing, ?lines, ?listing⟩
  case stdout => rw [stdout_of_finished (hending true), if_pos rfl]
  case names => rw [Extract.names_reportJson, names_reportOf hnone]
  case lines =>
    apply mapM_eq_some_map
    intro p hp
    exact Extract.linesOf?_reportJson (lookup_reportOf hfs hnone hp)
  case listing =>
    rw [stdout_of_finished (hending false), if_neg Bool.false_ne_true, Findings.listing,
      (Extract.find_of_error?_eq_none hnone).2, Finding.flatMap_listing, List.flatMap_def]
    rfl

end

/-- A file that comes three times in two spellings, one that is no UTF-8 and one that is missing. -/
theorem extract_modes_agree_twoSpellings :
    (extract partlyReadable {} ["a.mpx", "bad.mpx", "d", "./a.mpx", "gone.mpx", "a.mpx"] true).ending =
      .finished 1 ∧
    (Extract.reportJson (reportOf partlyReadable {}
      ["a.mpx", "bad.mpx", "d", "./a.mpx", "gone.mpx", "a.mpx"])).names = ["a.mpx", "d/b.mpx"] := by
  have hfs : partlyReadable.WellNamed := by decide
  have hending : (extract partlyReadable {}
      ["a.mpx", "bad.mpx", "d", "./a.mpx", "gone.mpx", "a.mpx"] true).ending = .finished 1 := by
    with_unfolding_all decide
  obtain ⟨-, -, -, -, hnames, -⟩ := extract_modes_agree hfs hending
  refine ⟨hending, hnames.trans ?_⟩
  with_unfolding_all decide

end Command

end ScriptBlocks
