/-
# Sessions on several workers

A session on several workers scans all files first, with visitors that each
worker takes from file to file, and then takes the findings into the index.
A session in order scans and takes in one file after the other, and stops at
the first tree that is refused.  When the visitors reset, both come to the
same (`outcome_scanFilesParallel`), however the files are shared out:

* Of every file that is due something is found (`exists_finding`), and it is
  what any scanner with the same setup finds, whatever the worker did before
  (`find?_findings`).
* Both sessions then go through the paths in the same order, with the same
  index and the same report at each of them (`collect_outcome`).  The states
  of the visitors differ; the step from one path to the next only asks that
  their setup does not (`Abreast`).
-/
import SourceMetrics.Proofs.Scan.Freshness
import SourceMetrics.Proofs.Unit.Insertion
import SourceMetrics.Scan.Parallel

namespace SourceMetrics

/-- What a session leaves behind: its result and the index. -/
def Session.outcome {σ α : Type} (s : Session σ α) : Except ScanError ScanReport × UnitIndex α :=
  (s.result, s.scanner.index)

/-- A tree that is refused breaks an invariant. -/
theorem UnitIndex.error_of_insert {α : Type} [Amount α] {index : UnitIndex α} {tree : UnitTree α}
    {err : ScanError} (h : index.insert tree = .error err) : ∃ fault, err = .invariant fault := by
  rcases index.insert_cases tree with ⟨-, hrefused⟩ | ⟨-, id, next, haccepted⟩
  · rw [hrefused] at h
    cases h
    exact ⟨_, rfl⟩
  · rw [haccepted] at h
    cases h

namespace Scanner

variable {σ α κ : Type}

/-- An error of one file is put in the report. -/
theorem recordFailure_fileScoped {path : String} {err : ScanError} (h : err.isFileScoped)
    (report : ScanReport) :
    (recordFailure report path err : Except ScanError (ScanReport × Event α)) =
      .ok (report.addFailure ⟨path, err⟩, .skippingFile path err) := if_pos h

/-- A broken invariant ends a session. -/
theorem recordFailure_invariant (path : String) (fault : InvariantFault) (report : ScanReport) :
    (recordFailure report path (.invariant fault) : Except ScanError (ScanReport × Event α)) =
      .error (.invariant fault) := rfl

/-- Two sessions that have come to the same path: the one in order has
states of the setup in `ms`, and both have the same index. -/
structure Abreast (e : Engine σ α) (setup : Visitor σ α → σ → κ) (ms : List σ)
    (one many : Scanner σ α) : Prop where
  engine : one.engine = e
  cancelled : one.cancelled = false
  setup : e.SameSetup setup ms one.memories
  index : one.index = many.index

namespace Abreast

variable {e : Engine σ α} {setup : Visitor σ α → σ → κ} {ms ms' : List σ}
  {one many : Scanner σ α}

theorem scanned (h : Abreast e setup ms one many) (hms' : e.SameSetup setup ms ms') :
    Abreast e setup ms { one with memories := ms' } many :=
  ⟨h.engine, h.cancelled, hms', h.index⟩

theorem taken (h : Abreast e setup ms one many) (index : UnitIndex α) :
    Abreast e setup ms { one with index := index } { many with index := index } :=
  ⟨h.engine, h.cancelled, h.setup, rfl⟩

end Abreast

variable [Amount α]

/-! ## What workers find -/

section Work
variable {e : Engine σ α} {setup : Visitor σ α → σ → κ} {read : Reader} {paths : List String}
  {misses : Nat → Bool} {ms ms' : List σ}

/-- A finding is what a scan gives, in states that the scans of the worker
led to. -/
theorem exists_scanPath_of_mem_work {P : List σ → Prop}
    (hscan : ∀ ms path, P ms → P (e.scanPath read ms path).memories) (hms : P ms)
    {positions : List Nat} {f : Finding α} (hf : f ∈ work e read paths misses ms positions) :
    ∃ path ms', paths[f.position]? = some path ∧ P ms' ∧
      f.result = (e.scanPath read ms' path).result := by
  induction positions generalizing ms with
  | nil => cases hf
  | cons position rest ih =>
      unfold work at hf
      cases hpath : paths[position]? with
      | none =>
          rw [hpath] at hf
          exact ih hms hf
      | some path =>
          rw [hpath] at hf
          by_cases hmiss : misses position
          · simp only [hmiss, if_true] at hf
            exact ih hms hf
          · simp only [hmiss, Bool.false_eq_true, if_false] at hf
            rcases List.mem_cons.mp hf with rfl | hf
            · exact ⟨path, ms, hpath, hms, rfl⟩
            · exact ih (hscan ms path hms) hf

/-- Of a file that is passed over nothing is found. -/
theorem misses_of_mem_work {positions : List Nat} {f : Finding α}
    (hf : f ∈ work e read paths misses ms positions) : misses f.position = false := by
  induction positions generalizing ms with
  | nil => cases hf
  | cons position rest ih =>
      unfold work at hf
      cases hpath : paths[position]? with
      | none =>
          rw [hpath] at hf
          exact ih hf
      | some path =>
          rw [hpath] at hf
          by_cases hmiss : misses position
          · simp only [hmiss, if_true] at hf
            exact ih hf
          · simp only [hmiss, Bool.false_eq_true, if_false] at hf
            rcases List.mem_cons.mp hf with rfl | hf
            · exact Bool.eq_false_iff.mpr hmiss
            · exact ih hf

/-- Of every file a worker is given and does not pass over it finds
something. -/
theorem exists_mem_work {positions : List Nat} {position : Nat} {path : String}
    (hposition : position ∈ positions) (hpath : paths[position]? = some path)
    (hmiss : misses position = false) :
    ∃ f ∈ work e read paths misses ms positions, f.position = position := by
  induction positions generalizing ms with
  | nil => cases hposition
  | cons first rest ih =>
      unfold work
      rcases List.mem_cons.mp hposition with rfl | hrest
      · simp only [hpath, hmiss, Bool.false_eq_true, if_false]
        exact ⟨_, List.mem_cons_self, rfl⟩
      · cases paths[first]? with
        | none => exact ih hrest
        | some other =>
            by_cases hother : misses first
            · simp only [hother, if_true]
              exact ih hrest
            · simp only [hother, Bool.false_eq_true, if_false]
              obtain ⟨f, hf, heq⟩ := ih hrest
              exact ⟨f, List.mem_cons_of_mem _ hf, heq⟩

/-- However files are shared out, what is found of one that is due is what a
scan gives, in states that the scans of a worker led to. -/
theorem exists_finding {P : List σ → Prop}
    (hscan : ∀ ms path, P ms → P (e.scanPath read ms path).memories) (hms : P ms)
    {d : Distribution} (hd : d.Covers paths.length) {position : Nat} {path : String}
    (hpath : paths[position]? = some path) (hmiss : misses position = false) :
    ∃ f ms', (d.workers.flatMap (work e read paths misses ms)).find?
        (fun f => f.position = position) = some f ∧ P ms' ∧
      f.result = (e.scanPath read ms' path).result := by
  have hlt : position < paths.length := (List.getElem?_eq_some_iff.mp hpath).1
  obtain ⟨positions, hpositions, hposition⟩ :=
    List.mem_flatten.mp (hd.mem_iff.mpr (List.mem_range.mpr hlt))
  obtain ⟨g, hg, hgposition⟩ : ∃ g ∈ work e read paths misses ms positions,
      g.position = position := exists_mem_work hposition hpath hmiss
  cases hfind : (d.workers.flatMap (work e read paths misses ms)).find?
      (fun f => f.position = position) with
  | none =>
      have hnone := List.find?_eq_none.mp hfind g (List.mem_flatMap.mpr ⟨positions, hpositions, hg⟩)
      exact absurd (decide_eq_true hgposition) hnone
  | some f =>
      obtain ⟨worker, -, hf⟩ := List.mem_flatMap.mp (List.mem_of_find?_eq_some hfind)
      obtain ⟨path', ms', hpath', hms', hresult⟩ := exists_scanPath_of_mem_work hscan hms hf
      have hfposition := List.find?_some hfind
      rw [of_decide_eq_true hfposition] at hpath'
      obtain rfl : path = path' := Option.some.inj (hpath.symm.trans hpath')
      exact ⟨f, ms', rfl, hms', hresult⟩

/-- However files are shared out, one that is due is found as a scan in
states of the same setup gives it. -/
theorem find?_findings (hreset : ∀ v ∈ e.visitors, v.Resets (setup v))
    (hms : e.SameSetup setup ms ms') {d : Distribution} (hd : d.Covers paths.length)
    {position : Nat} {path : String} (hpath : paths[position]? = some path)
    (hmiss : misses position = false) :
    ∃ f, (d.workers.flatMap (work e read paths misses ms')).find?
        (fun f => f.position = position) = some f ∧
      f.result = (e.scanPath read ms path).result := by
  obtain ⟨f, ms₁, hfind, hms₁, hresult⟩ :=
    exists_finding (P := fun ms₁ => e.SameSetup setup ms ms₁)
      (fun ms₁ path h => h.trans (Engine.sameSetup_scanPath read path hreset ms₁)) hms hd hpath
      hmiss
  exact ⟨f, hfind, hresult.trans (Engine.scanPath_eq read path hreset hms₁).1.symm⟩

/-- Of files that are passed over nothing is found. -/
theorem find?_findings_eq_none {workers : List (List Nat)} {position : Nat}
    (hmiss : misses position = true) :
    (workers.flatMap (work e read paths misses ms)).find? (fun f => f.position = position) =
      none := by
  refine List.find?_eq_none.mpr fun f hf hposition => ?_
  obtain ⟨positions, -, hwork⟩ := List.mem_flatMap.mp hf
  have hdue := misses_of_mem_work hwork
  rw [of_decide_eq_true hposition, hmiss] at hdue
  cases hdue

/-- Where every file is passed over, nothing is found. -/
theorem work_eq_nil (hmiss : ∀ position, misses position = true) (positions : List Nat) :
    work e read paths misses ms positions = [] := by
  refine List.eq_nil_iff_forall_not_mem.mpr fun f hf => ?_
  have hdue := misses_of_mem_work hf
  rw [hmiss] at hdue
  cases hdue

end Work

/-! ## From path to path -/

section Paths
variable {read : Reader} {path : String}

/-- How a session in order goes on after a path: `sc` is the scanner before,
`scan` what the file there comes to. -/
theorem outcome_scanFrom (sc : Scanner σ α) (hcancelled : sc.cancelled = false) (seen : Nat)
    (report : ScanReport) (rest : List String) :
    (scanFrom read none sc seen report (path :: rest)).outcome =
      let scan := sc.engine.scanPath read sc.memories path
      let next := { sc with memories := scan.memories }
      match scan.result with
      | .error err =>
        (scanFrom read none next (seen + 1) (report.addFailure ⟨path, err⟩) rest).outcome
      | .ok tree =>
        match sc.index.insert tree with
        | .error err => (.error err, sc.index)
        | .ok (id, index) =>
          (scanFrom read none { next with index := index } (seen + 1) (report.addScanned id)
            rest).outcome := by
  simp only [scanFrom, hcancelled, Bool.false_eq_true, if_false, asksToStop, scanFile, takeIn]
  cases hscan : (sc.engine.scanPath read sc.memories path).result with
  | error err =>
      have hscoped := Engine.isFileScoped_of_scanPath read path hscan
      simp only [recordFailure_fileScoped hscoped]
      rfl
  | ok tree =>
      cases hinsert : sc.index.insert tree with
      | error err =>
          obtain ⟨fault, rfl⟩ := UnitIndex.error_of_insert hinsert
          simp only [hinsert, recordFailure_invariant]
          rfl
      | ok taken =>
          simp only [hinsert]
          rfl

/-- How a session on several workers goes on after a path on which something
was found. -/
theorem outcome_collect {findings : List (Finding α)} {position : Nat} {f : Finding α}
    (hfind : findings.find? (fun f => f.position = position) = some f)
    (hscoped : ∀ err, f.result = .error err → err.isFileScoped) (sc : Scanner σ α)
    (report : ScanReport) (rest : List String) :
    (collect findings sc position report (path :: rest)).outcome =
      match f.result with
      | .error err =>
        (collect findings sc (position + 1) (report.addFailure ⟨path, err⟩) rest).outcome
      | .ok tree =>
        match sc.index.insert tree with
        | .error err => (.error err, sc.index)
        | .ok (id, index) =>
          (collect findings { sc with index := index } (position + 1) (report.addScanned id)
            rest).outcome := by
  simp only [collect, hfind]
  cases hresult : f.result with
  | error err =>
      simp only [recordFailure_fileScoped (hscoped err hresult)]
      rfl
  | ok tree =>
      cases hinsert : sc.index.insert tree with
      | error err =>
          simp only [hinsert]
          rfl
      | ok taken =>
          simp only [hinsert]

/-- The only error that ends a session is a broken invariant. -/
theorem error_of_scanFrom {sc : Scanner σ α} {seen : Nat} {report : ScanReport}
    {paths : List String} {err : ScanError}
    (h : (scanFrom read none sc seen report paths).outcome.1 = .error err) :
    ∃ fault, err = .invariant fault := by
  induction paths generalizing sc seen report with
  | nil => cases h
  | cons path rest ih =>
      cases hcancelled : sc.cancelled with
      | true =>
          simp only [scanFrom, hcancelled, if_true] at h
          cases h
      | false =>
          rw [outcome_scanFrom sc hcancelled] at h
          cases hscan : (sc.engine.scanPath read sc.memories path).result with
          | error err =>
              simp only [hscan] at h
              exact ih h
          | ok tree =>
              cases hinsert : sc.index.insert tree with
              | error err =>
                  simp only [hscan, hinsert] at h
                  cases h
                  exact UnitIndex.error_of_insert hinsert
              | ok taken =>
                  simp only [hscan, hinsert] at h
                  exact ih h

/-- Both sessions go the same way from path to path, where of each file that
is found which a scan gives. -/
theorem collect_outcome {e : Engine σ α} {setup : Visitor σ α → σ → κ} {ms : List σ}
    (hreset : ∀ v ∈ e.visitors, v.Resets (setup v)) {findings : List (Finding α)}
    {one many : Scanner σ α} (h : Abreast e setup ms one many) {position : Nat} (seen : Nat)
    (report : ScanReport) {paths : List String}
    (hfind : ∀ (k : Nat) (path : String), paths[k]? = some path →
      ∃ f, findings.find? (fun f => f.position = position + k) = some f ∧
        f.result = (e.scanPath read ms path).result) :
    (collect findings many position report paths).outcome =
      (scanFrom read none one seen report paths).outcome := by
  induction paths generalizing one many position seen report with
  | nil => exact congrArg (Except.ok report, ·) h.index.symm
  | cons path rest ih =>
      have hrest : ∀ (k : Nat) (path : String), rest[k]? = some path →
          ∃ f, findings.find? (fun f => f.position = position + 1 + k) = some f ∧
            f.result = (e.scanPath read ms path).result := by
        intro k path hpath
        rw [Nat.add_right_comm, Nat.add_assoc]
        exact hfind (k + 1) path hpath
      obtain ⟨f, hf, hresult⟩ := hfind 0 path rfl
      rw [Nat.add_zero] at hf
      obtain rfl := h.engine
      -- Neither scan knows which files came before.
      rw [(Engine.scanPath_eq read path hreset h.setup).1] at hresult
      have hscoped : ∀ err, f.result = .error err → err.isFileScoped :=
        fun err herr => Engine.isFileScoped_of_scanPath read path (hresult.symm.trans herr)
      have hscanned := h.scanned
        (h.setup.trans (Engine.sameSetup_scanPath read path hreset one.memories))
      rw [outcome_collect hf hscoped, outcome_scanFrom one h.cancelled, hresult]
      cases hscan : (one.engine.scanPath read one.memories path).result with
      | error err =>
          simp only [hscan]
          exact ih hscanned (seen + 1) _ hrest
      | ok tree =>
          cases hinsert : many.index.insert tree with
          | error err => simp only [hscan, h.index, hinsert]
          | ok taken =>
              simp only [hscan, h.index, hinsert]
              exact ih (hscanned.taken taken.2) (seen + 1) _ hrest

/-- Without findings nothing is done. -/
theorem collect_nil (sc : Scanner σ α) (position : Nat) (report : ScanReport)
    (paths : List String) :
    collect [] sc position report paths =
      ⟨.ok { report with cancelled := report.cancelled || !paths.isEmpty }, sc, [], []⟩ := by
  induction paths generalizing position report with
  | nil => simp only [collect, List.isEmpty_nil, Bool.not_true, Bool.or_false]
  | cons path rest ih =>
      simp only [collect, List.find?_nil, ih, List.isEmpty_cons, Bool.not_false, Bool.or_true,
        Bool.true_or]

end Paths

/-! ## Whole sessions -/

variable {setup : Visitor σ α → σ → κ}

/-- A session on several workers comes to the outcome of the session in
order over the same paths. -/
theorem outcome_scanFilesParallel (sc : Scanner σ α)
    (hreset : ∀ v ∈ sc.engine.visitors, v.Resets (setup v)) (read : Reader) {d : Distribution}
    {paths : List String} (hd : d.Covers paths.length)
    (hcancel : sc.cancelled = true ∨ ∀ position, d.misses position = false) :
    (sc.scanFilesParallel read d paths).outcome = (sc.scanFiles read none paths).outcome := by
  show (collect (d.workers.flatMap _) sc 0 .empty paths).outcome =
    (scanFrom read none sc 0 .empty paths).outcome
  cases hcancelled : sc.cancelled with
  | true =>
      have hnone : d.workers.flatMap (work sc.engine read paths
          (fun position => true || d.misses position) (sc.engine.forkMemories sc.memories)) = [] :=
        List.flatMap_eq_nil_iff.mpr fun positions _ => work_eq_nil (fun _ => rfl) positions
      rw [hnone, collect_nil]
      cases paths with
      | nil => rfl
      | cons path rest =>
          simp only [scanFrom, hcancelled, if_true]
          rfl
  | false =>
      have hmisses : ∀ position, (false || d.misses position) = false :=
        hcancel.resolve_left (by rw [hcancelled]; exact Bool.false_ne_true)
      refine collect_outcome hreset ⟨rfl, hcancelled, .refl sc.memories, rfl⟩ 0 .empty ?_
      intro k path hpath
      rw [Nat.zero_add]
      exact find?_findings hreset (Engine.sameSetup_forkMemories hreset sc.memories) hd hpath
        (hmisses k)

/-- However the files are shared out over workers that each take their
visitors from file to file, the session comes to what the session in order
comes to: the same report with the same index, or the same broken invariant
with the same index.  A request to stop comes before the session or not at
all, and the visitors reset. -/
theorem scanFilesParallel_agrees (sc : Scanner σ α)
    (hreset : ∀ v ∈ sc.engine.visitors, v.Resets (setup v)) (read : Reader) {d : Distribution}
    {paths : List String} (hd : d.Covers paths.length)
    (hcancel : sc.cancelled = true ∨ ∀ position, d.misses position = false) :
    (sc.scanFilesParallel read d paths).scanner.index =
      (sc.scanFiles read none paths).scanner.index ∧
    ((∃ report, (sc.scanFilesParallel read d paths).result = .ok report ∧
        (sc.scanFiles read none paths).result = .ok report) ∨
      ∃ fault, (sc.scanFilesParallel read d paths).result = .error (.invariant fault) ∧
        (sc.scanFiles read none paths).result = .error (.invariant fault)) := by
  have houtcome := outcome_scanFilesParallel sc hreset read hd hcancel
  have hresult : (sc.scanFilesParallel read d paths).result =
      (sc.scanFiles read none paths).result :=
    congrArg Prod.fst houtcome
  refine ⟨congrArg Prod.snd houtcome, ?_⟩
  rw [hresult]
  cases h : (sc.scanFiles read none paths).result with
  | ok report => exact .inl ⟨report, rfl, rfl⟩
  | error err =>
      obtain ⟨fault, rfl⟩ := error_of_scanFrom h
      exact .inr ⟨fault, rfl, rfl⟩

/-! ## Four files on two workers -/

/-- Counts the lines of code of files that all hold one token. -/
def lineCounting : Scanner FileMemory Nat :=
  let lines := Visitor.linesOfCode Metric.linesOfCode
  let text : Node := ⟨"text", ⟨1, 1, 1, 2⟩, none, some ⟨"x", .code⟩, []⟩
  let registry : MetricRegistry Nat := ⟨[⟨Metric.linesOfCode, .sum⟩]⟩
  { engine :=
      { grammar := .ofTable "sample" [("x", .ok text)] none
        registry := registry
        plan := DispatchPlan.empty.enter 0 lines
        visitors := [lines]
        extractors := []
        filesMetric := none }
    memories := [.empty]
    index := .new "project" registry
    cancelled := false }

theorem scanFilesParallel_agrees_twoWorkers :
    let read : Reader := fun path => if path = "missing" then .error .notFound else .ok "x"
    let d : Distribution := ⟨[[2, 0], [3, 1]], fun _ => false⟩
    let paths := ["a", "missing", "b", "a"]
    d.Covers paths.length ∧
      (lineCounting.scanFilesParallel read d paths).scanner.index =
        (lineCounting.scanFiles read none paths).scanner.index ∧
      (lineCounting.scanFilesParallel read d paths).result =
        (lineCounting.scanFiles read none paths).result := by
  intro read d paths
  have hreset : ∀ v ∈ lineCounting.engine.visitors, v.Resets fun _ => () := by
    intro v hv
    obtain rfl := List.mem_singleton.mp hv
    exact (Visitor.BuiltIn.linesOfCode Metric.linesOfCode).resets
  have hd : d.Covers paths.length := by
    show [2, 0, 3, 1].Perm (List.range 4)
    decide
  obtain ⟨hindex, hresult⟩ :=
    scanFilesParallel_agrees lineCounting hreset read hd (.inr fun _ => rfl)
  refine ⟨hd, hindex, ?_⟩
  rcases hresult with ⟨report, hmany, hone⟩ | ⟨fault, hmany, hone⟩
  · rw [hmany, hone]
  · rw [hmany, hone]

end Scanner
end SourceMetrics
