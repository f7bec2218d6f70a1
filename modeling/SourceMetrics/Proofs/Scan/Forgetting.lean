/-
# A scanner forgets the files before

The visitors live as long as their scanner, and a history leaves them in
states of all sorts: as they were after a text that does not parse or cannot
be read, and full of the last file after a pass, whether the index took its
tree or refused it.  None of this shows in a later file when the visitors
are those that come with the scanner: its tree is the one that a fresh
scanner of the same configuration comes to.

No step of a scanner changes the setup of its visitors (`Steps.sameSetup`),
and a scan rests on that setup alone (`Engine.scan_eq`).  Of the index the
same is said file by file: `Recalled` holds of a scanner whose files all
have the trees that scans in the first states give, and every step keeps it.
-/
import SourceMetrics.JavaScript.Comment
import SourceMetrics.Proofs.Scan.History
import SourceMetrics.Proofs.Unit.Queries

namespace SourceMetrics

open UnitIndex

variable {σ α κ : Type} [Amount α]

namespace Engine

variable {e : Engine σ α} {setup : Visitor σ α → σ → κ} {ms ms' : List σ}

/-- The scan of a file comes to the same from states with the same setup. -/
theorem scanRequest_result_eq (hreset : ∀ v ∈ e.visitors, v.Resets (setup v))
    (hms : e.SameSetup setup ms ms') (r : FileRequest) :
    (e.scanRequest ms r).result = (e.scanRequest ms' r).result := by
  cases r with
  | text key text => exact (scan_eq hreset hms key text).1
  | path read path => exact (scanPath_eq read path hreset hms).1

end Engine

namespace Scanner

/-- The scanner has the given engine and its visitors the setup of the given
states, and every file of its index has the tree that a scan in these states
gives. -/
structure Recalled (e : Engine σ α) (setup : Visitor σ α → σ → κ) (ms : List σ)
    (sc : Scanner σ α) : Prop where
  engine : sc.engine = e
  setup : e.SameSetup setup ms sc.memories
  files : ∃ t, sc.index.Represents t ∧
    ∀ file ∈ t.children, ∃ text, (e.scan ms file.key text).result = .ok file

section
variable {e : Engine σ α} {setup : Visitor σ α → σ → κ} {ms : List σ} {sc sc' : Scanner σ α}

theorem Recalled.step (hreset : ∀ v ∈ e.visitors, v.Resets (setup v))
    (h : Recalled e setup ms sc) (hstep : Step sc sc') : Recalled e setup ms sc' := by
  obtain ⟨rfl, hsetup, t, ht, hfiles⟩ := h
  cases hstep with
  | scanned key text =>
      have hscan := Engine.sameSetup_scan hreset sc.memories key text
      exact ⟨rfl, hsetup.trans hscan, t, ht, hfiles⟩
  | @taken ms₁ key text tree id index hleads hscan hinsert =>
      -- The states the tree was made in have the setup of the first ones.
      have hms := hsetup.trans (hleads.sameSetup hreset)
      obtain ⟨-, t', ht', hchildren⟩ := ht.insert hinsert
      refine ⟨rfl, hsetup, t', ht', ?_⟩
      intro file hfile
      rw [hchildren] at hfile
      rcases List.mem_append.mp hfile with hfile | hfile
      · exact hfiles file hfile
      · obtain rfl := List.mem_singleton.mp hfile
        refine ⟨text, ?_⟩
        rw [(Engine.file_of_scan hscan).2, (Engine.scan_eq hreset hms key text).1]
        exact hscan
  | cancelled => exact ⟨rfl, hsetup, t, ht, hfiles⟩

theorem Recalled.steps (hreset : ∀ v ∈ e.visitors, v.Resets (setup v))
    (h : Recalled e setup ms sc) (hsteps : Steps sc sc') : Recalled e setup ms sc' :=
  hsteps.preserves (fun _ _ hstep h => h.step hreset hstep) h

/-- A fresh scanner has nothing to recall. -/
theorem recalled_of_new {config : ScannerConfig σ α} {grammar : Grammar} {events : List (Event α)}
    (hnew : new config grammar = .ok (sc, events)) :
    Recalled sc.engine setup sc.memories sc :=
  ⟨rfl, .refl _, _, represents_of_new hnew, fun _ hfile => absurd hfile List.not_mem_nil⟩

end

/-- A fresh scanner takes every tree in. -/
theorem exists_scanOne_of_new {config : ScannerConfig σ α} {grammar : Grammar}
    {fresh : Scanner σ α} {events : List (Event α)} (hnew : new config grammar = .ok (fresh, events))
    {r : FileRequest} {tree : UnitTree α}
    (hscan : (fresh.engine.scanRequest fresh.memories r).result = .ok tree) :
    ∃ id, (fresh.scanOne r).result = .ok id ∧
      (fresh.scanOne r).scanner.index.toTree id = some tree := by
  have hempty := represents_of_new hnew
  rcases fresh.scanOne_cases r with ⟨err, herr, -⟩ | ⟨_, -, htaken, -⟩ |
    ⟨tree', id, index, hscan', -, hinsert, hone⟩
  · rw [hscan] at herr
    cases herr
  · rw [hempty.holdsFile_iff] at htaken
    cases htaken
  · obtain rfl := Except.ok.inj (hscan.symm.trans hscan')
    refine ⟨id, ?_, ?_⟩
    · rw [hone]
    · rw [hone]
      exact hempty.toTree_insert hinsert

/-- Whatever a scanner has been through, a file has the tree that a fresh
scanner of the same configuration comes to, or fails like there.  The tree is
the one that the index then holds, and so it is with all files that the index
took in on the way. -/
theorem scan_forgets_history {config : ScannerConfig FileMemory α} {grammar : Grammar}
    {fresh : Scanner FileMemory α} {events : List (Event α)}
    (hnew : new config grammar = .ok (fresh, events))
    (hvisitors : ∀ v ∈ config.visitors, v.BuiltIn) (history : List Request) :
    let sc := fresh.after history
    (∀ r, (sc.engine.scanRequest sc.memories r).result =
      (fresh.engine.scanRequest fresh.memories r).result) ∧
    (∀ r id, (sc.scanOne r).result = .ok id →
      ∃ tree id', (sc.scanOne r).scanner.index.toTree id = some tree ∧
        (fresh.scanOne r).result = .ok id' ∧
        (fresh.scanOne r).scanner.index.toTree id' = some tree) ∧
    (∀ project, sc.index.toTree projectId = some project → ∀ file ∈ project.children,
      ∃ text, (fresh.engine.scan fresh.memories file.key text).result = .ok file) := by
  intro sc
  obtain ⟨registry, -, hfresh⟩ := new_eq_ok hnew
  have hreset : ∀ v ∈ fresh.engine.visitors, v.Resets (fun _ => ()) := by
    intro v hv
    rw [hfresh] at hv
    exact (hvisitors v hv).resets
  obtain ⟨hengine, hsetup, t, ht, hfiles⟩ :=
    (recalled_of_new hnew).steps hreset (steps_after fresh history)
  have hresult : ∀ r, (sc.engine.scanRequest sc.memories r).result =
      (fresh.engine.scanRequest fresh.memories r).result := by
    intro r
    rw [hengine]
    exact (Engine.scanRequest_result_eq hreset hsetup r).symm
  refine ⟨hresult, ?_, ?_⟩
  · intro r id hid
    rcases sc.scanOne_cases r with ⟨err, -, hone⟩ | ⟨tree, -, -, hone⟩ |
      ⟨tree, id', index, hscan, -, hinsert, hone⟩
    · rw [hone] at hid
      cases hid
    · rw [hone] at hid
      cases hid
    · rw [hone] at hid
      obtain rfl := Except.ok.inj hid
      rw [hresult] at hscan
      obtain ⟨id₀, hid₀, htree⟩ := exists_scanOne_of_new hnew hscan
      refine ⟨tree, id₀, ?_, hid₀, htree⟩
      rw [hone]
      exact ht.toTree_insert hinsert
  · intro project hproject file hfile
    rw [toTree_of_holds none projectId t ht.holds] at hproject
    obtain rfl := Option.some.inj hproject
    exact hfiles file hfile

/-! ## A header and a marked line -/

/-- Counts lines of code, and comments but for the header of a file. -/
def withHeader : ScannerConfig FileMemory Nat where
  projectKey := "project"
  metrics := [⟨Metric.linesOfCode, .sum⟩, ⟨Metric.commentLines, .sum⟩,
    ⟨Metric.commentBlankLines, .sum⟩]
  filesMetric := none
  visitors := [Visitor.linesOfCode Metric.linesOfCode,
    Visitor.comments JavaScript.commentAnalyser
      ⟨Metric.commentLines, Metric.commentBlankLines, true, true⟩]
  extractors := []

/-- One text that is a header, a token and a marked comment. -/
def headed : Grammar :=
  let leaf (line : Nat) (text : String) (kind : TokenKind) : Node :=
    ⟨"leaf", ⟨line, 1, line, 2⟩, none, some ⟨text, kind⟩, []⟩
  .ofTable "sample"
    [("x", .ok ⟨"text", ⟨1, 1, 3, 2⟩, none, none,
      [leaf 1 "// header" .comment, leaf 2 "code" .code, leaf 3 "// NOSONAR" .comment]⟩)] none

theorem builtIn_withHeader : ∀ v ∈ withHeader.visitors, v.BuiltIn := by
  intro v hv
  rcases List.mem_cons.mp hv with rfl | hv
  · exact .linesOfCode Metric.linesOfCode
  · obtain rfl := List.mem_singleton.mp hv
    exact .comments _ _

theorem scan_forgets_history_headed :
    ∃ fresh events, new withHeader headed = .ok (fresh, events) ∧
      (∀ v ∈ withHeader.visitors, v.BuiltIn) ∧
      let sc := fresh.after [.file (.text "a" "x"), .file (.text "a" "x"), .file (.text "b" "?"),
        .file (.path (fun _ => .error .notFound) "c")]
      (sc.scanOne (.text "d" "x")).result = .ok 2 ∧
      ((sc.scanOne (.text "d" "x")).scanner.index.toTree 2).map
        (fun t => (t.noSonarLines, t.measures.get Metric.linesOfCode)) = some ([3], 1) ∧
      ∃ tree id', (sc.scanOne (.text "d" "x")).scanner.index.toTree 2 = some tree ∧
        (fresh.scanOne (.text "d" "x")).result = .ok id' ∧
        (fresh.scanOne (.text "d" "x")).scanner.index.toTree id' = some tree := by
  have hnew : new withHeader headed = .ok (_, _) := rfl
  obtain ⟨-, htree, -⟩ := scan_forgets_history hnew builtIn_withHeader
    [.file (.text "a" "x"), .file (.text "a" "x"), .file (.text "b" "?"),
      .file (.path (fun _ => .error .notFound) "c")]
  refine ⟨_, _, hnew, builtIn_withHeader, ?_, ?_, ?_⟩
  · decide +kernel
  · decide +kernel
  · exact htree (.text "d" "x") 2 (by decide +kernel)

end Scanner
end SourceMetrics
