/-
# What can have happened to a scanner

A scanner serves requests: to scan one file, whose text is given or lies at
a path, to scan files in order or on several workers, and to stop.  A
history is a list of requests, and `Scanner.after` the scanner that has
served it.  (The scan of a single file that gives its tree ends the scanner,
so that it is no part of a history.)

A request may go through many files and may break off in the middle.  Seen
from the scanner, it is made of steps of three kinds (`Scanner.Step`):

    scanned     a text was scanned            the visitors have other states
    taken       a tree was taken in           there is another index
    cancelled   the scanner was asked to stop

The tree that is taken in is one that a scan gave, by the visitors of the
scanner or by copies of them that had scanned other texts before
(`Engine.Leads`).  What every step keeps, every history keeps
(`steps_after`): the engine stays the same, and the index represents a tree.
-/
import Mathlib.Logic.Relation
import SourceMetrics.Proofs.Scan.Acceptance
import SourceMetrics.Proofs.Scan.Distribution
import SourceMetrics.Proofs.Unit.Insertion

namespace SourceMetrics

/-! ## Requests -/

/-- A file to be scanned. -/
inductive FileRequest where
  /-- A text under a key. -/
  | text (key text : String)
  /-- The file at a path, which is its key. -/
  | path (read : Reader) (path : String)

namespace FileRequest

def key : FileRequest → String
  | .text name _ => name
  | .path _ place => place

/-- The text of the file, or why it cannot be read. -/
def content : FileRequest → Except IoFault String
  | .text _ words => .ok words
  | .path read place => read place

end FileRequest

/-- What a scanner can be asked for. -/
inductive Request where
  | file (r : FileRequest)
  | files (read : Reader) (stopAfter : Option Nat) (paths : List String)
  | filesParallel (read : Reader) (d : Distribution) (paths : List String)
  | cancel

/-- What a request is answered with. -/
inductive Reply where
  | id (result : Except ScanError Nat)
  | report (result : Except ScanError ScanReport)
  | done
deriving DecidableEq

variable {σ α : Type} [Amount α]

/-- The scan of one file. -/
def Engine.scanRequest (e : Engine σ α) (memories : List σ) : FileRequest → Engine.Scan σ α
  | .text key text => e.scan memories key text
  | .path read path => e.scanPath read memories path

/-- A file is scanned by its text, once that is read. -/
theorem Engine.scanRequest_eq (e : Engine σ α) (memories : List σ) (r : FileRequest) :
    e.scanRequest memories r =
      match r.content with
      | .error fault => ⟨.error (.io r.key fault), memories, []⟩
      | .ok text => e.scan memories r.key text := by
  cases r <;> rfl

/-- A scan that gives a tree scanned a text. -/
theorem Engine.exists_scan_of_scanRequest {e : Engine σ α} {memories : List σ} {r : FileRequest}
    {tree : UnitTree α} (h : (e.scanRequest memories r).result = .ok tree) :
    ∃ text, r.content = .ok text ∧ (e.scan memories r.key text).result = .ok tree := by
  rw [Engine.scanRequest_eq] at h
  cases hcontent : r.content with
  | error fault =>
      rw [hcontent] at h
      cases h
  | ok text =>
      rw [hcontent] at h
      exact ⟨text, rfl, h⟩

/-- The states that visitors come to from some states, by scans and copies. -/
inductive Engine.Leads (e : Engine σ α) (memories : List σ) : List σ → Prop
  | refl : Leads e memories memories
  | scan {ms : List σ} (key text : String) : Leads e memories ms →
      Leads e memories (e.scan ms key text).memories
  | fork {ms : List σ} : Leads e memories ms → Leads e memories (e.forkMemories ms)

theorem Engine.Leads.scanRequest {e : Engine σ α} {memories ms : List σ}
    (h : e.Leads memories ms) (r : FileRequest) :
    e.Leads memories (e.scanRequest ms r).memories := by
  rw [Engine.scanRequest_eq]
  cases r.content with
  | error fault => exact h
  | ok text => exact h.scan r.key text

/-- Scans and copies leave the setup of the visitors alone. -/
theorem Engine.Leads.sameSetup {κ : Type} {e : Engine σ α} {setup : Visitor σ α → σ → κ}
    {ms ms' : List σ} (hreset : ∀ v ∈ e.visitors, v.Resets (setup v)) (h : e.Leads ms ms') :
    e.SameSetup setup ms ms' := by
  induction h with
  | refl => exact .refl ms
  | @scan ms₁ key text _ ih => exact ih.trans (sameSetup_scan hreset ms₁ key text)
  | @fork ms₁ _ ih => exact ih.trans (sameSetup_forkMemories hreset ms₁)

namespace Scanner

/-- Scans one file. -/
def scanOne (sc : Scanner σ α) : FileRequest → Outcome σ α Nat
  | .text key text => sc.scanSource key text
  | .path read path => sc.scanFile read path

/-- Serves a request. -/
def serve (sc : Scanner σ α) : Request → Reply × Scanner σ α
  | .file r => (.id (sc.scanOne r).result, (sc.scanOne r).scanner)
  | .files read stopAfter paths =>
    let session := sc.scanFiles read stopAfter paths
    (.report session.result, session.scanner)
  | .filesParallel read d paths =>
    let session := sc.scanFilesParallel read d paths
    (.report session.result, session.scanner)
  | .cancel => (.done, sc.cancel)

/-- The scanner that has served requests. -/
def after (sc : Scanner σ α) (requests : List Request) : Scanner σ α :=
  requests.foldl (fun sc request => (sc.serve request).2) sc

/-- The answers to requests, in order. -/
def replies (sc : Scanner σ α) : List Request → List Reply
  | [] => []
  | request :: rest => (sc.serve request).1 :: (sc.serve request).2.replies rest

theorem scanOne_eq (sc : Scanner σ α) (r : FileRequest) :
    sc.scanOne r = sc.takeIn (sc.engine.scanRequest sc.memories r) := by
  cases r <;> rfl

/-- The scan of a file gives no tree, or one that is refused since its key is
taken, or one that is taken in. -/
theorem scanOne_cases (sc : Scanner σ α) (r : FileRequest) :
    let scan := sc.engine.scanRequest sc.memories r
    let next := { sc with memories := scan.memories }
    (∃ err, scan.result = .error err ∧ sc.scanOne r = ⟨.error err, next, scan.events⟩) ∨
    (∃ tree, scan.result = .ok tree ∧ sc.index.holdsFile r.key = true ∧
      sc.scanOne r = ⟨.error (.invariant (.alreadyIndexed .file r.key)), next, scan.events⟩) ∨
    ∃ tree id index, scan.result = .ok tree ∧ sc.index.holdsFile r.key = false ∧
      sc.index.insert tree = .ok (id, index) ∧
      sc.scanOne r = ⟨.ok id, { next with index := index }, scan.events⟩ := by
  intro scan next
  rw [scanOne_eq, takeIn]
  cases hscan : scan.result with
  | error err => exact .inl ⟨err, rfl, rfl⟩
  | ok tree =>
      obtain ⟨text, -, htext⟩ := Engine.exists_scan_of_scanRequest hscan
      obtain ⟨hkind, hkey⟩ := Engine.file_of_scan htext
      rcases sc.index.insert_cases tree with ⟨htaken, hinsert⟩ | ⟨hfree, id, index, hinsert⟩
      · rw [hkind, hkey] at hinsert
        rw [hkey] at htaken
        refine .inr (.inl ⟨tree, rfl, htaken, ?_⟩)
        simp only [hinsert]
        rfl
      · rw [hkey] at hfree
        refine .inr (.inr ⟨tree, id, index, rfl, hfree, hinsert, ?_⟩)
        simp only [hinsert]
        rfl

/-! ## Steps -/

/-- What a scanner does at a time. -/
inductive Step : Scanner σ α → Scanner σ α → Prop
  | scanned (sc : Scanner σ α) (key text : String) :
      Step sc { sc with memories := (sc.engine.scan sc.memories key text).memories }
  | taken {sc : Scanner σ α} {ms : List σ} {key text : String} {tree : UnitTree α}
      {id : Nat} {index : UnitIndex α} : sc.engine.Leads sc.memories ms →
      (sc.engine.scan ms key text).result = .ok tree →
      sc.index.insert tree = .ok (id, index) → Step sc { sc with index := index }
  | cancelled (sc : Scanner σ α) : Step sc sc.cancel

/-- What a scanner does in several steps. -/
abbrev Steps : Scanner σ α → Scanner σ α → Prop := Relation.ReflTransGen Step

/-- What every step keeps, several steps keep. -/
theorem Steps.preserves {P : Scanner σ α → Prop}
    (hstep : ∀ sc sc' : Scanner σ α, Step sc sc' → P sc → P sc') {sc sc' : Scanner σ α}
    (h : Steps sc sc') (hsc : P sc) : P sc' := by
  induction h with
  | refl => exact hsc
  | tail _ step ih => exact hstep _ _ step ih

theorem Steps.engine_eq {sc sc' : Scanner σ α} (h : Steps sc sc') : sc'.engine = sc.engine := by
  refine h.preserves (P := fun sc' => sc'.engine = sc.engine) ?_ rfl
  intro sc₁ sc₂ step heq
  cases step <;> exact heq

theorem Steps.represents {sc sc' : Scanner σ α} (h : Steps sc sc')
    (hsc : ∃ t, sc.index.Represents t) : ∃ t, sc'.index.Represents t := by
  refine h.preserves (P := fun sc => ∃ t, sc.index.Represents t) ?_ hsc
  rintro sc₁ sc₂ step ⟨t, ht⟩
  cases step with
  | scanned => exact ⟨t, ht⟩
  | taken _ _ hinsert =>
      obtain ⟨-, t', ht', -⟩ := ht.insert hinsert
      exact ⟨t', ht'⟩
  | cancelled => exact ⟨t, ht⟩

/-! ## Requests as steps -/

theorem steps_scanRequest (sc : Scanner σ α) (r : FileRequest) :
    Steps sc { sc with memories := (sc.engine.scanRequest sc.memories r).memories } := by
  rw [Engine.scanRequest_eq]
  cases r.content with
  | error fault => exact .refl
  | ok text => exact .single (.scanned sc r.key text)

/-- One file is scanned, and its tree is taken in where it is accepted. -/
theorem steps_scanOne (sc : Scanner σ α) (r : FileRequest) : Steps sc (sc.scanOne r).scanner := by
  rcases sc.scanOne_cases r with ⟨err, -, hone⟩ | ⟨tree, -, -, hone⟩ |
    ⟨tree, id, index, hscan, -, hinsert, hone⟩
  · rw [hone]
    exact steps_scanRequest sc r
  · rw [hone]
    exact steps_scanRequest sc r
  · rw [hone]
    obtain ⟨text, -, htext⟩ := Engine.exists_scan_of_scanRequest hscan
    exact .head (.taken .refl htext hinsert) (steps_scanRequest { sc with index := index } r)

theorem steps_scanFrom (read : Reader) (stopAfter : Option Nat) (sc : Scanner σ α) (seen : Nat)
    (report : ScanReport) (paths : List String) :
    Steps sc (scanFrom read stopAfter sc seen report paths).scanner := by
  induction paths generalizing sc seen report with
  | nil => exact .refl
  | cons path rest ih =>
      rw [scanFrom]
      cases hcancelled : sc.cancelled with
      | true => exact .refl
      | false =>
          simp only [Bool.false_eq_true, if_false]
          have hfile : Steps sc (sc.scanFile read path).scanner := steps_scanOne sc (.path read path)
          have hnext : Steps sc (if asksToStop stopAfter (seen + 1) then
              (sc.scanFile read path).scanner.cancel else (sc.scanFile read path).scanner) := by
            split
            · exact hfile.tail (.cancelled _)
            · exact hfile
          cases (sc.scanFile read path).result with
          | ok id => exact hnext.trans (ih _ _ _)
          | error err =>
              cases hrecord : (recordFailure report path err :
                  Except ScanError (ScanReport × Event α)) with
              | error err =>
                  simp only [hrecord]
                  exact hnext
              | ok recorded =>
                  simp only [hrecord]
                  exact hnext.trans (ih _ _ _)

/-- The trees among findings are taken in where they are accepted. -/
theorem steps_collect {findings : List (Finding α)} {e : Engine σ α} {memories : List σ}
    (hfindings : ∀ f ∈ findings, ∀ tree, f.result = .ok tree → ∃ ms key text,
      e.Leads memories ms ∧ (e.scan ms key text).result = .ok tree)
    (sc : Scanner σ α) (he : sc.engine = e) (hmemories : sc.memories = memories) (position : Nat)
    (report : ScanReport) (paths : List String) :
    Steps sc (collect findings sc position report paths).scanner := by
  induction paths generalizing sc position report with
  | nil => exact .refl
  | cons path rest ih =>
      rw [collect]
      cases hfind : findings.find? (fun f => f.position = position) with
      | none => exact ih sc he hmemories _ _
      | some f =>
          cases hresult : f.result with
          | error err =>
              simp only [hresult]
              cases hrecord : (recordFailure report path err :
                  Except ScanError (ScanReport × Event α)) with
              | error err => exact .refl
              | ok recorded => exact ih sc he hmemories _ _
          | ok tree =>
              simp only [hresult]
              cases hinsert : sc.index.insert tree with
              | error err => exact .refl
              | ok taken =>
                  obtain ⟨ms, key, text, hms, hscan⟩ :=
                    hfindings f (List.mem_of_find?_eq_some hfind) tree hresult
                  subst he hmemories
                  exact .head (.taken hms hscan hinsert)
                    (ih { sc with index := taken.2 } rfl rfl _ _)

theorem steps_scanFilesParallel (sc : Scanner σ α) (read : Reader) (d : Distribution)
    (paths : List String) : Steps sc (sc.scanFilesParallel read d paths).scanner := by
  refine steps_collect (e := sc.engine) ?_ sc rfl rfl 0 .empty paths
  intro f hf tree htree
  obtain ⟨positions, -, hwork⟩ := List.mem_flatMap.mp hf
  obtain ⟨path, ms, -, hms, hresult⟩ :=
    exists_scanPath_of_mem_work (fun _ path h => h.scanRequest (.path read path))
      (Engine.Leads.refl.fork : sc.engine.Leads sc.memories _) hwork
  have hscan : (sc.engine.scanRequest ms (.path read path)).result = .ok tree :=
    hresult.symm.trans htree
  obtain ⟨text, -, htext⟩ := Engine.exists_scan_of_scanRequest hscan
  exact ⟨ms, path, text, hms, htext⟩

/-- Every request is served in steps. -/
theorem steps_serve (sc : Scanner σ α) (request : Request) : Steps sc (sc.serve request).2 := by
  cases request with
  | file r => exact steps_scanOne sc r
  | files read stopAfter paths => exact steps_scanFrom read stopAfter sc 0 .empty paths
  | filesParallel read d paths => exact steps_scanFilesParallel sc read d paths
  | cancel => exact .single (.cancelled sc)

/-- Every history is made of steps. -/
theorem steps_after (sc : Scanner σ α) (requests : List Request) :
    Steps sc (sc.after requests) := by
  induction requests generalizing sc with
  | nil => exact .refl
  | cons request rest ih => exact (steps_serve sc request).trans (ih (sc.serve request).2)

/-! ## From a fresh scanner -/

section
variable {config : ScannerConfig σ α} {grammar : Grammar} {sc : Scanner σ α}
  {events : List (Event α)}

omit [Amount α] in
/-- A fresh scanner has the engine of its configuration, its visitors are in
their first states, and the project is empty. -/
theorem new_eq_ok (h : new config grammar = .ok (sc, events)) :
    ∃ registry, Engine.Sound config registry ∧
      sc = ⟨Engine.engineOf config grammar registry, config.visitors.map (·.initial),
        .new config.projectKey registry, false⟩ := by
  obtain ⟨e, he, hsc⟩ := Engine.bind_eq_ok_iff.mp h
  obtain ⟨registry, hsound, rfl⟩ := (Engine.build_eq_ok_iff config grammar e).mp he
  obtain ⟨rfl, -⟩ := Prod.mk.inj (Except.ok.inj hsc)
  exact ⟨registry, hsound, rfl⟩

omit [Amount α] in
theorem represents_of_new (h : new config grammar = .ok (sc, events)) :
    sc.index.Represents ⟨.project, config.projectKey, 0, .empty, .empty, [], []⟩ := by
  obtain ⟨registry, -, rfl⟩ := new_eq_ok h
  exact UnitIndex.represents_new config.projectKey registry

/-- After any history the index represents a tree. -/
theorem represents_after (h : new config grammar = .ok (sc, events)) (requests : List Request) :
    ∃ t, (sc.after requests).index.Represents t :=
  (steps_after sc requests).represents ⟨_, represents_of_new h⟩

end

end Scanner
end SourceMetrics
