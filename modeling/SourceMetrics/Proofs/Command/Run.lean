/-
# Every collected file is accounted for

A run counts its files several times over: when it collects them, when it
goes through them, when it takes their trees into the index, when it adds up
their metrics, and when it writes the report.  This module says that it
counts the same files each time, whatever can be read and parsed of them.

    collected   =  read and parsed  ⊎  failed
    files scanned, children and files of the project  =  read and parsed

* No path is collected twice, and the path of a file is its key; so nothing
  is refused by the index, in either mode (`scan_accounts`).
* What the report says of files rests on the session and its index alone
  (`Accounts`).
* What is printed is read back (`Report.read?_structuredText`), and what is
  read says the same (`ReportsOn`).  The number of the files metric goes
  through floating point, its shortest decimal and the reading of this; up to
  2 ^ 53 nothing is lost on the way.
-/
import SourceMetrics.Command.Run
import SourceMetrics.Proofs.Files.Collection
import SourceMetrics.Proofs.Report.Reading
import SourceMetrics.Proofs.Scan.FileTally

namespace SourceMetrics

/-! ## Files that are accounted for -/

/-- A report and an index account for files: those that can be scanned are
the children of the project, in order, and the others are failures.  The
project counts one for each child. -/
structure Accounts {α : Type} [Amount α] (scannable : String → Bool) (files : List String)
    (report : ScanReport) (index : UnitIndex α) : Prop where
  scanned : report.scanned.length = (files.filter scannable).length
  failures : report.failures.map (·.file) = files.filter fun path => !scannable path
  uncancelled : report.cancelled = false
  children : (Report.projectTree index).children.map (·.key) = files.filter scannable
  counted : (Report.projectTree index).measures.value? Metric.files =
    if (files.filter scannable).isEmpty then none
    else some (0 + Amount.ones (files.filter scannable).length)

/-- What was read of a report says this of the files: how many were scanned,
which of them failed, and that so many are as many as were collected.  The
files that were scanned are the children of the project, which has one of each
in its files metric, as far as floating point counts. -/
structure ReportsOn (scanned failed : List String) (collected : Nat) (value : Json ℚ) : Prop where
  filesScanned : value.at? ["files_scanned"] = some (.amount scanned.length)
  failures : (value.listed ["failures"]).map (·.at? ["file"]) = failed.map (some <| .text ·)
  together : scanned.length + (value.listed ["failures"]).length = collected
  children : (value.listed ["project", "children"]).map (·.at? ["key"]) =
    scanned.map (some <| .text ·)
  counted : value.at? ["project", "measures", Metric.files] =
    if scanned.isEmpty then none else some (.amount (min scanned.length (2 ^ 53) : ℕ))

namespace Accounts

variable {α : Type} [Amount α] {scannable : String → Bool} {files : List String}
  {report : ScanReport} {index : UnitIndex α}

/-- A session is clean if every file could be scanned. -/
theorem isClean_eq (h : Accounts scannable files report index) :
    report.isClean = files.all scannable := by
  have hfailures : report.failures.isEmpty = files.all scannable := by
    rw [← List.isEmpty_map (f := (·.file)), h.failures, Bool.eq_iff_iff, List.isEmpty_iff,
      List.filter_eq_nil_iff, List.all_eq_true]
    simp only [Bool.not_eq_true', Bool.not_eq_false]
  rw [ScanReport.isClean, h.uncancelled, hfailures, Bool.not_false, Bool.and_true]

end Accounts

/-- What is read of the structured report says the same of the files. -/
theorem Accounts.reportsOn {scannable : String → Bool} {files : List String}
    {report : ScanReport} {index : UnitIndex Float} (h : Accounts scannable files report index)
    (subject : Report.Subject) :
    ReportsOn (files.filter scannable) (files.filter fun path => !scannable path) files.length
      ((Report.structured subject index report).readAs Json.ofFloat) := by
  have hfailures : ((((Report.structured subject index report).readAs Json.ofFloat).listed
      ["failures"]).map (·.at? ["file"])) =
        (files.filter fun path => !scannable path).map (some <| .text ·) := by
    rw [Json.map_at?_listed_readAs, Report.failures_structured, ← h.failures, List.map_map,
      List.map_map]
    exact List.map_congr_left fun failure _ => congrArg some (by rw [Json.readAs])
  refine ⟨?_, hfailures, ?_, ?_, ?_⟩
  · rw [Json.at?_readAs, Report.filesScanned_structured, h.scanned]
    exact congrArg some (by rw [Json.readAs])
  · have hlength := congrArg List.length hfailures
    rw [List.length_map, List.length_map] at hlength
    rw [hlength, ← List.length_append]
    exact (List.filter_append_perm scannable files).length_eq
  · rw [Json.map_at?_listed_readAs, Report.childKeys_structured, ← h.children, List.map_map,
      List.map_map]
    exact List.map_congr_left fun t _ => congrArg some (by rw [Json.readAs])
  · rw [Json.at?_readAs, Report.project_structured, UnitTree.measures_toJson, h.counted]
    cases (files.filter scannable).isEmpty with
    | true => rfl
    | false =>
        have hones := Amount.zero_add_ones (files.filter scannable).length
        have hread :=
          Json.readAs_ofCount (Nat.min_le_right (files.filter scannable).length (2 ^ 53))
        rw [← hones] at hread
        exact congrArg some hread

/-! ## What is found of files -/

section
variable {σ α : Type} [Amount α] {config : ScannerConfig σ α} {grammar : Grammar}
  {fresh : Scanner σ α} {events : List (Event α)} {read : Reader} {scannable : String → Bool}

/-- Of files under their paths, the keys that pass a test are the paths that
do. -/
theorem map_key_filter_path (test : FileRequest → Bool) (files : List String) :
    ((files.map (.path read)).filter test).map FileRequest.key =
      files.filter fun path => test (.path read path) := by
  rw [List.filter_map, List.map_map]
  exact List.map_id _

omit [Amount α] in
/-- A fresh scanner takes in files of any paths, if no two are the same. -/
theorem Scanner.apart_of_new (hnew : new config grammar = .ok (fresh, events))
    {files : List String} (hnodup : files.Nodup) : fresh.Apart (files.map (.path read)) where
  nodup := by
    rw [FileRequest.scannedKeys, map_key_filter_path]
    exact hnodup.filter _
  free key _ := by
    rw [← Bool.not_eq_true, (represents_of_new hnew).holdsFile_iff]
    exact List.not_mem_nil

/-- What is found of files by a fresh scanner accounts for them. -/
theorem accounts_of_found (hnew : Scanner.new config grammar = .ok (fresh, events))
    (hone : (1 : α) + 0 = 1) (hfiles : config.filesMetric = some Metric.files)
    (hm : ⟨Metric.files, .sum⟩ ∈ config.metrics)
    (hscannable : ∀ path,
      ((FileRequest.path read path).unscannable? grammar).isNone = scannable path)
    {files : List String} (hnodup : files.Nodup) {trees : List (UnitTree α)}
    (hfound : fresh.engine.Found fresh.memories (files.map (.path read)) trees) :
    Accounts scannable files
      ⟨UnitTree.childIds fresh.index.size trees,
        fresh.engine.failuresOf (files.map (.path read)), false⟩
      (fresh.index.offerAll trees) := by
  have ht := Scanner.represents_of_new hnew
  have hapart : fresh.Apart (files.map (.path read)) := Scanner.apart_of_new hnew hnodup
  obtain ⟨registry, hsound, rfl⟩ := Scanner.new_eq_ok hnew
  have hkeys : trees.map (·.key) = files.filter scannable := by
    rw [hfound.map_key, FileRequest.scannedKeys, map_key_filter_path]
    exact List.filter_congr fun path _ => hscannable path
  have hlength : trees.length = (files.filter scannable).length := by
    rw [← hkeys, List.length_map]
  -- All trees are accepted, so they are the children of the project.
  have haccepted : (UnitIndex.new config.projectKey registry).accepted trees = trees :=
    ht.accepted_eq_self (hfound.map_key ▸ hapart.nodup) (hfound.map_key ▸ hapart.free)
  obtain ⟨t, ht', hchildren⟩ := ht.offerAll trees
  have hchildren : t.children = trees := by
    rw [hchildren]
    exact haccepted
  have hproject : Report.projectTree
      ((UnitIndex.new config.projectKey registry).offerAll trees) = t := by
    rw [Report.projectTree, UnitIndex.toTree_of_holds none UnitIndex.projectId t ht'.holds]
    rfl
  obtain ⟨hkeeps, hregistry, hbare⟩ :=
    (UnitIndex.keepsTotals_new config.projectKey registry).offerAll ht trees
  have hdefinitions : ((UnitIndex.new config.projectKey registry).offerAll trees).registry.definitions =
      registry.definitions := congrArg (·.definitions) hregistry
  have hmetric : ⟨Metric.files, .sum⟩ ∈ registry.definitions := by
    rwa [MetricRegistry.definitions_of_ofDefinitions hsound.registered]
  refine ⟨?_, ?_, rfl, ?_, ?_⟩
  · rw [← hlength]
    exact UnitTree.length_childIds _ trees
  · rw [Engine.map_file_failuresOf, map_key_filter_path]
    exact List.filter_congr fun path _ => congrArg (!·) (hscannable path)
  · rw [hproject, hchildren, hkeys]
  · have hcounted := hkeeps.value?_project ht'
      (hdefinitions ▸ MetricRegistry.nodup_of_ofDefinitions hsound.registered)
      (hdefinitions ▸ hmetric) (congrArg (·.own) hbare) (fun c hc => by
        rw [hchildren] at hc
        obtain ⟨ms, r, hscan⟩ := hfound.exists_of_mem hc
        exact Engine.value?_filesMetric hsound hone hfiles hmetric hscan)
    rw [hproject, hcounted, hchildren, hlength, ← hkeys, List.isEmpty_map]

end

/-! ## The scan command -/

namespace Command

/-- A file can be read and parsed. -/
def parses (fs : FileSystem) (parser : String → Option RawNode) (path : String) : Bool :=
  match fs.readLossy path with
  | .ok text => ((JavaScript.grammar parser).parse text).isOk
  | .error _ => false

variable {α : Type} [Amount α] (fs : FileSystem) (parser : String → Option RawNode)

theorem unscannable?_isNone (path : String) :
    ((FileRequest.path fs.readLossy path).unscannable? (JavaScript.grammar parser)).isNone =
      parses fs parser path := by
  simp only [FileRequest.unscannable?, FileRequest.content, FileRequest.key, parses]
  cases fs.readLossy path with
  | error fault => rfl
  | ok text =>
      dsimp only
      cases (JavaScript.grammar parser).parse text <;> rfl

omit [Amount α] in
/-- Where nobody asks to stop, no file is passed over. -/
theorem kept_of_uninterrupted {σ : Type} {sc : Scanner σ α} {d : Distribution}
    (hcancelled : sc.cancelled = false) (hdue : ∀ position, d.misses position = false)
    (files : List String) : sc.kept d files = files ∧ sc.skipped d files = [] := by
  have hpasses : sc.passesOver d = fun _ => false := by
    funext position
    rw [Scanner.passesOver, hcancelled, hdue]
    rfl
  constructor
  · simp only [Scanner.kept, hpasses, filesAt, Bool.not_false, List.filter_true,
      List.zipIdx_map_fst]
  · simp only [Scanner.skipped, hpasses, filesAt, List.filter_false, List.map_nil]

/-- In either mode a scan goes through and accounts for all files, however they
are shared out. -/
theorem scan_accounts (hone : (1 : α) + 0 = 1) (settings : Settings) {d : Distribution}
    {files : List String} (hd : d.Covers files.length)
    (hdue : ∀ position, d.misses position = false) (hnodup : files.Nodup) :
    ∃ (session : Session FileMemory α) (report : ScanReport),
      scan fs parser settings d files = .ok session ∧ session.result = .ok report ∧
      Accounts (parses fs parser) files report session.scanner.index := by
  obtain ⟨fresh, events, hnew⟩ : ∃ (fresh : Scanner FileMemory α) (events : List (Event α)),
      Scanner.new (JavaScript.config settings.options [] []) (JavaScript.grammar parser) =
        .ok (fresh, events) := ⟨_, _, rfl⟩
  have ht := Scanner.represents_of_new hnew
  have hapart : fresh.Apart (files.map (.path fs.readLossy)) := Scanner.apart_of_new hnew hnodup
  have hcancelled : fresh.cancelled = false := by
    obtain ⟨registry, -, rfl⟩ := Scanner.new_eq_ok hnew
    rfl
  -- Either mode finds trees of the same files, and comes to what was found.
  have hfound : ∃ trees, fresh.engine.Found fresh.memories (files.map (.path fs.readLossy)) trees ∧
      ∃ session, scan fs parser settings d files = .ok session ∧
        session.outcome = (.ok ⟨UnitTree.childIds fresh.index.size trees,
          fresh.engine.failuresOf (files.map (.path fs.readLossy)), false⟩,
          fresh.index.offerAll trees) := by
    rw [scan, hnew]
    cases settings.parallel with
    | false =>
        exact ⟨_, Engine.found_treesOf .refl _, _, rfl,
          Scanner.outcome_scanFrom_apart ht hcancelled hapart 0 .empty⟩
    | true =>
        obtain ⟨hkept, hskipped⟩ := kept_of_uninterrupted hcancelled hdue files
        have hkeptApart : fresh.Apart ((fresh.kept d files).map (.path fs.readLossy)) :=
          hkept.symm ▸ hapart
        obtain ⟨trees, hfound, houtcome⟩ :=
          Scanner.outcome_scanFilesParallel_found ht hd hkeptApart
        rw [hkept] at hfound houtcome
        rw [hskipped] at houtcome
        exact ⟨trees, hfound, _, rfl, houtcome⟩
  obtain ⟨trees, hfound, session, hscan, houtcome⟩ := hfound
  obtain ⟨hresult, hindex⟩ := Prod.mk.inj houtcome
  have haccounts := accounts_of_found hnew hone rfl List.mem_cons_self
    (unscannable?_isNone fs parser) hnodup hfound
  exact ⟨session, _, hscan, hresult, hindex ▸ haccounts⟩

/-- A run that collects files ends in a report, for whatever settings, in
either mode and however files are shared out.  The exit code is 0 if every file
is read and parsed, and else 1.  What the structured report prints is a
structured value, and what is read of it has as many files scanned and failures
together as were collected.  The children of the project are the files that
were scanned, in the order of paths, and the project counts them all in its
files metric, as far as floating point counts without rounding.

Directories list names that are names, each once, the files are shared out
among the workers, and nobody asks to stop, as no run of a command does; other
hypotheses say that the path leads somewhere, that there are valid settings, and
that there is a file to scan. -/
theorem runSharing_accounts_for_files {fs : FileSystem} (hfs : fs.root.IsProper)
    (parser : String → Option RawNode) (colours : Bool) {args : ScanArguments}
    {share : Nat → Distribution} (hshare : ∀ count, (share count).Covers count)
    (hdue : ∀ count position, (share count).misses position = false) {root : String}
    {settings : Settings} (hroot : fs.canonicalize args.path = .ok root)
    (hsettings : loadSettings fs (settingsPath fs args.config root) = .ok settings)
    (hfiles : fs.collectPaths settings.accepts root ≠ []) :
    let files := fs.collectPaths settings.accepts root
    let scanned := files.filter (parses fs parser)
    let failed := files.filter fun path => !parses fs parser path
    ∃ (text : String) (isClean : Bool),
      runSharing share fs parser colours args = .ok (.report text isClean) ∧
      (RunResult.report text isClean).code = (if files.all (parses fs parser) then 0 else 1) ∧
      (args.format = .json → ∃ value : Json ℚ,
        Json.read? (RunResult.report text isClean).output = some value ∧
        ReportsOn scanned failed files.length value) ∧
      files.Nodup ∧ files.Pairwise (Path.before · ·) := by
  intro files scanned failed
  have hnodup : files.Nodup := fs.nodup_collectPaths hfs settings.accepts root
  have hsorted : files.Pairwise (Path.before · ·) :=
    fs.collectPaths_sorted hfs settings.accepts root
  obtain ⟨session, report, hscan, hresult, haccounts⟩ := scan_accounts (α := Float) fs parser rfl
    (args.adjust settings) (hshare files.length) (hdue files.length) hnodup
  have hsome : files.isEmpty = false := List.isEmpty_eq_false_iff.mpr hfiles
  have hrun : runSharing share fs parser colours args =
      .ok (.report (reportText args (settingsPath fs args.config root) colours
        session.scanner.index report) report.isClean) := by
    have haccepts : (args.adjust settings).accepts = settings.accepts := rfl
    simp only [runSharing, hroot, Except.mapError, bind, Except.bind, hsettings, haccepts]
    rw [if_neg (Bool.eq_false_iff.mp hsome)]
    simp only [files, hscan, hresult]
    rfl
  let subject : Report.Subject := ⟨args.path, settingsPath fs args.config root⟩
  refine ⟨_, _, hrun, ?_, fun hjson => ⟨_, ?_, haccounts.reportsOn subject⟩, hnodup, hsorted⟩
  · rw [RunResult.code, haccounts.isClean_eq]
  · rw [RunResult.output, reportText, hjson]
    exact Report.read?_structuredText subject session.scanner.index report

/-! ### A directory with a file that cannot be parsed -/

/-- Three files, two of which are to be scanned, with names out of order. -/
def mixedEntry : Entry :=
  .directory [("b.js", .file "b".toUTF8), ("a.js", .file "a".toUTF8), ("c.txt", .file "c".toUTF8)]

def mixedFiles : FileSystem := ⟨.directory [("w", mixedEntry)], []⟩

theorem isProper_mixedFiles : mixedFiles.root.IsProper := by
  have hentry : mixedEntry.IsProper := by
    refine .directory (by decide) (by decide) ?_
    simp only [List.forall_mem_cons]
    exact ⟨.file _, .file _, .file _, fun _ h => absurd h List.not_mem_nil⟩
  refine .directory (by decide) (by decide) ?_
  simp only [List.forall_mem_cons]
  exact ⟨hentry, fun _ h => absurd h List.not_mem_nil⟩

/-- Knows one text alone. -/
def parseOnlyA (text : String) : Option RawNode :=
  if text = "a" then
    some ⟨⟨"program", none, 0, 1, ⟨0, 0⟩, ⟨0, 1⟩, false, false, false⟩, []⟩
  else none

/-- Two workers, the second of which takes the first file. -/
def firstApart (count : Nat) : Distribution :=
  ⟨[(List.range count).filter (· ≠ 0), (List.range count).filter (· = 0)], fun _ => false⟩

theorem covers_firstApart (count : Nat) : (firstApart count).Covers count := by
  have hperm := List.filter_append_perm (fun position => decide (position ≠ 0)) (List.range count)
  simpa [Distribution.Covers, firstApart] using hperm

/-- What is printed of them. -/
def mixedReport : String :=
  String.join (List.map (· ++ "\n") [
    "\x7b",
    "  \"version\": \"0.1.0\",",
    "  \"path\": \"/w\",",
    "  \"files_scanned\": 1,",
    "  \"failures\": [",
    "    \x7b",
    "      \"file\": \"/w/b.js\",",
    "      \"error\": \"parse error in /w/b.js at 1:1: parser produced no tree\"",
    "    \x7d",
    "  ],",
    "  \"cancelled\": false,",
    "  \"project\": \x7b",
    "    \"kind\": \"project\",",
    "    \"key\": \"JavaScript Project\",",
    "    \"start_line\": 0,",
    "    \"own\": \x7b\x7d,",
    "    \"measures\": \x7b",
    "      \"files\": 1.0,",
    "      \"lines\": 1.0",
    "    \x7d,",
    "    \"children\": [",
    "      \x7b",
    "        \"kind\": \"file\",",
    "        \"key\": \"/w/a.js\",",
    "        \"start_line\": 1,",
    "        \"own\": \x7b",
    "          \"files\": 1.0,",
    "          \"lines\": 1.0",
    "        \x7d,",
    "        \"measures\": \x7b",
    "          \"files\": 1.0,",
    "          \"lines\": 1.0",
    "        \x7d,",
    "        \"children\": []",
    "      \x7d",
    "    ]",
    "  \x7d",
    "\x7d"])

theorem runSharing_accounts_for_files_mixed :
    let args : ScanArguments := ⟨"/w", none, .json, true, false⟩
    runSharing firstApart mixedFiles parseOnlyA false args = .ok (.report mixedReport false) ∧
    (RunResult.report mixedReport false).code = 1 ∧
    ∃ value : Json ℚ, Json.read? mixedReport = some value ∧
      ReportsOn ["/w/a.js"] ["/w/b.js"] 2 value := by
  intro args
  have hroot : mixedFiles.canonicalize args.path = .ok "/w" := by decide +kernel
  have hsettings : loadSettings mixedFiles (settingsPath mixedFiles args.config "/w") =
      .ok Settings.standard := by decide +kernel
  have hdirectory : mixedFiles.isFile "/w" = false := by decide +kernel
  have hlisted : ((FileSystem.filesBelow "/w" mixedEntry).filter Settings.standard.accepts).Perm
      ["/w/a.js", "/w/b.js"] := by decide +kernel
  have hcollected : mixedFiles.collectPaths Settings.standard.accepts "/w" =
      ["/w/a.js", "/w/b.js"] :=
    FileSystem.collectPaths_eq hdirectory rfl hlisted (by decide +kernel)
  have hfiles : mixedFiles.collectPaths Settings.standard.accepts "/w" ≠ [] := by
    rw [hcollected]
    exact List.cons_ne_nil "/w/a.js" ["/w/b.js"]
  have hprinted : runSharing firstApart mixedFiles parseOnlyA false args =
      .ok (.report mixedReport false) := by
    have haccepts : (args.adjust Settings.standard).accepts = Settings.standard.accepts := rfl
    simp only [runSharing, hroot, Except.mapError, bind, Except.bind, hsettings, haccepts,
      hcollected]
    decide +kernel
  obtain ⟨text, isClean, hrun, hcode, hread, -⟩ :=
    runSharing_accounts_for_files isProper_mixedFiles parseOnlyA false covers_firstApart
      (fun _ _ => rfl) hroot hsettings hfiles
  obtain ⟨htext, hclean⟩ := RunResult.report.inj (Except.ok.inj (hrun.symm.trans hprinted))
  rw [htext, hclean, RunResult.output] at hread
  obtain ⟨value, hvalue, hreports⟩ := hread rfl
  have hparsed : ["/w/a.js", "/w/b.js"].filter (parses mixedFiles parseOnlyA) = ["/w/a.js"] := by
    decide +kernel
  have hunparsed : (["/w/a.js", "/w/b.js"].filter fun path => !parses mixedFiles parseOnlyA path) =
      ["/w/b.js"] := by decide +kernel
  rw [hcollected, hparsed, hunparsed] at hreports
  exact ⟨hprinted, rfl, value, hvalue, hreports⟩

end Command
end SourceMetrics
