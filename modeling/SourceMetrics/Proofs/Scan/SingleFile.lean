/-
# The scan of a single file

Besides the scan of a file, which answers with an id, there is one that
answers with the tree.  It scans the file, counts the files of the index and
reads the tree back:

    scanFile ── id ──▸ one file? ── yes ──▸ the tree of the id
        │                  │
      error            notOneFile

That the tree cannot be read back never happens (`scanSingleFile_cases`), so
that all rests on the count.  A tree adds to it the units that it has of the
kind of a file (`Represents.length_query_insert`): its root, and whatever the
extractors claim as a file.  So for a fresh scanner the two scans agree, as
long as no extractor does so; and a scanner that has a file already always
counts two at least.
-/
import SourceMetrics.Proofs.Scan.Forgetting
import SourceMetrics.Proofs.Scan.Hierarchy
import SourceMetrics.Proofs.Scan.Solo

namespace SourceMetrics

/-- The extractor claims no node as a file. -/
def UnitExtractor.ClaimsNoFile (x : UnitExtractor) : Prop :=
  ∀ n surroundings spec, x.extract n surroundings = some spec → spec.kind ≠ .file

theorem UnitExtractor.ClaimsNested.claimsNoFile {x : UnitExtractor} (h : x.ClaimsNested) :
    x.ClaimsNoFile :=
  fun n surroundings spec hspec => (UnitKind.isNested_iff.mp (h n surroundings spec hspec)).2

/-! ## How many units there are of a kind -/

namespace UnitTree

variable {α : Type}

/-- How many units of some trees are of a kind. -/
def countKinds (ts : List (UnitTree α)) (kind : UnitKind) : Nat :=
  ((preorderList ts).map (·.kind)).count kind

/-- How many units of a tree are of a kind. -/
def countKind (t : UnitTree α) (kind : UnitKind) : Nat := countKinds [t] kind

theorem countKinds_append (ts us : List (UnitTree α)) (kind : UnitKind) :
    countKinds (ts ++ us) kind = countKinds ts kind + countKinds us kind := by
  rw [countKinds, preorderList_append, List.map_append, List.count_append]
  rfl

/-- The root counts, and the units below it do. -/
theorem countKind_eq (t : UnitTree α) (kind : UnitKind) :
    t.countKind kind = (if t.kind = kind then 1 else 0) + countKinds t.children kind := by
  obtain ⟨k, key, startLine, own, measures, lines, children⟩ := t
  rw [countKind, countKinds, preorderList, preorder, preorderList, List.append_nil, List.map_cons,
    List.count_cons, Nat.add_comm]
  simp only [beq_iff_eq]
  rfl

end UnitTree

namespace UnitIndex

open UnitTree

variable {α : Type} {index : UnitIndex α} {t : UnitTree α}

theorem Represents.length_query (h : index.Represents t) (kind : UnitKind) :
    (index.query kind).length = t.countKind kind := by
  rw [h.query_eq, ← List.countP_eq_length_filter, countKind, countKinds, preorderList, preorderList,
    List.append_nil, ← map_kind_number none projectId t, ← h.units, List.count_eq_countP,
    List.countP_map]
  exact List.countP_congr fun u _ => by
    simp only [decide_eq_true_iff, Function.comp_apply, beq_iff_eq]

/-- A tree that is taken in adds the units that it has of a kind. -/
theorem Represents.length_query_insert [Amount α] {index' : UnitIndex α} {tree : UnitTree α}
    {id : Nat} (h : index.Represents t) (hinsert : index.insert tree = .ok (id, index'))
    (kind : UnitKind) :
    (index'.query kind).length = (index.query kind).length + tree.countKind kind := by
  obtain ⟨-, t', ht', hchildren⟩ := h.insert hinsert
  obtain ⟨hkind, -⟩ := h.root_insert ht' hinsert
  rw [ht'.length_query, h.length_query, t'.countKind_eq, t.countKind_eq, hchildren, hkind,
    countKinds_append, Nat.add_assoc]
  rfl

end UnitIndex

/-! ## Scanning a single file -/

namespace Engine

variable {σ α : Type} [Amount α] {e : Engine σ α}

/-- A file that was scanned counts as one. -/
theorem countKind_file_of_scan {ms : List σ} {key text : String} {tree : UnitTree α}
    (h : (e.scan ms key text).result = .ok tree) :
    tree.countKind .file = 1 + UnitTree.countKinds tree.children .file := by
  rw [tree.countKind_eq, if_pos (file_of_scan h).1]

/-- It counts as no more, unless an extractor claims a file within it. -/
theorem countKind_file_of_claimsNoFile (he : ∀ x ∈ e.extractors, x.ClaimsNoFile) {ms : List σ}
    {key text : String} {tree : UnitTree α} (h : (e.scan ms key text).result = .ok tree) :
    tree.countKind .file = 1 := by
  rw [countKind_file_of_scan h, UnitTree.countKinds, List.count_eq_zero.mpr]
  intro hmem
  obtain ⟨u, hu, hkind⟩ := List.mem_map.mp hmem
  exact kind_of_scan (P := (· ≠ .file)) he rfl h u hu hkind

end Engine

namespace Scanner

open UnitIndex

variable {σ α : Type} [Amount α]

/-- The scan of a single file fails where the scan of the file does, and else
gives the tree of the file, if there is no other unit of this kind. -/
theorem scanSingleFile_cases {sc : Scanner σ α} {t : UnitTree α} (ht : sc.index.Represents t)
    (read : Reader) (path : String) :
    let o := sc.scanFile read path
    let result := (sc.scanSingleFile read path).result
    (∃ err, o.result = .error err ∧ result = .error err) ∨
    ∃ id tree files, o.result = .ok id ∧ o.scanner.index.toTree id = some tree ∧
      (sc.engine.scanPath read sc.memories path).result = .ok tree ∧
      files = (sc.index.query .file).length + tree.countKind .file ∧
      result = if files = 1 then .ok tree else .error (.invariant (.notOneFile files)) := by
  intro o result
  rcases sc.scanOne_cases (.path read path) with ⟨err, -, hone⟩ | ⟨tree, -, -, hone⟩ |
    ⟨tree, id, index, hscan, -, hinsert, hone⟩
  · have ho : sc.scanFile read path = _ := hone
    simp only [o, result, scanSingleFile, ho]
    exact .inl ⟨err, rfl, rfl⟩
  · have ho : sc.scanFile read path = _ := hone
    simp only [o, result, scanSingleFile, ho]
    exact .inl ⟨_, rfl, rfl⟩
  · have ho : sc.scanFile read path = _ := hone
    have htree := ht.toTree_insert hinsert
    simp only [o, result, scanSingleFile, ho, ht.length_query_insert hinsert, htree]
    refine .inr ⟨id, tree, _, rfl, htree, hscan, rfl, ?_⟩
    exact ite_not _ _ _

/-- The result of a scan of a single file tells what the scan of the file
comes to: the tree of the id that this gives, which is the one that the pass
over the file made, or the same error. -/
structure Agrees (sc : Scanner σ α) (read : Reader) (path : String)
    (result : Except ScanError (UnitTree α)) : Prop where
  tree_iff : ∀ t, result = .ok t ↔ ∃ id, (sc.scanFile read path).result = .ok id ∧
    (sc.scanFile read path).scanner.index.toTree id = some t
  error_iff : ∀ err, result = .error err ↔ (sc.scanFile read path).result = .error err
  made : result = (sc.engine.scanPath read sc.memories path).result

section
variable {config : ScannerConfig σ α} {grammar : Grammar} {fresh : Scanner σ α}
  {events : List (Event α)}

omit [Amount α] in
/-- A fresh scanner has no file. -/
theorem length_query_file_of_new (hnew : new config grammar = .ok (fresh, events)) :
    (fresh.index.query .file).length = 0 := by
  rw [(represents_of_new hnew).length_query]
  rfl

/-- A fresh scanner refuses no tree, so that only the scan itself can fail. -/
theorem scanOne_eq_error_iff_of_new (hnew : new config grammar = .ok (fresh, events))
    (r : FileRequest) (err : ScanError) :
    (fresh.scanOne r).result = .error err ↔
      (fresh.engine.scanRequest fresh.memories r).result = .error err := by
  rcases fresh.scanOne_cases r with ⟨err', herr, hone⟩ | ⟨tree, -, htaken, -⟩ |
    ⟨tree, id, index, hscan, -, -, hone⟩
  · rw [hone, herr, Except.error.injEq, Except.error.injEq]
  · rw [(represents_of_new hnew).holdsFile_iff] at htaken
    cases htaken
  · rw [hone, hscan]
    exact iff_of_false (fun h => by cases h) fun h => by cases h

/-- For a fresh scanner whose extractors claim no files the two scans agree. -/
theorem agrees_of_new (hnew : new config grammar = .ok (fresh, events))
    (hclaims : ∀ x ∈ config.extractors, x.ClaimsNoFile) (read : Reader) (path : String) :
    fresh.Agrees read path (fresh.scanSingleFile read path).result := by
  have hextractors : fresh.engine.extractors = config.extractors := by
    obtain ⟨registry, -, rfl⟩ := new_eq_ok hnew
    rfl
  rw [← hextractors] at hclaims
  rcases scanSingleFile_cases (represents_of_new hnew) read path with ⟨err, hfile, hsingle⟩ |
    ⟨id, tree, files, hfile, htree, hscan, hfiles, hsingle⟩
  · have hscan := (scanOne_eq_error_iff_of_new hnew (.path read path) err).mp hfile
    rw [hsingle]
    refine ⟨fun t => ?_, fun err' => ?_, hscan.symm⟩
    · rw [hfile]
      exact iff_of_false (fun h => by cases h) fun ⟨_, h, _⟩ => by cases h
    · rw [hfile, Except.error.injEq, Except.error.injEq]
  · obtain ⟨text, -, htext⟩ := Engine.exists_scan_of_scanRequest (r := .path read path) hscan
    rw [length_query_file_of_new hnew, Engine.countKind_file_of_claimsNoFile hclaims htext] at hfiles
    rw [if_pos hfiles] at hsingle
    rw [hsingle]
    refine ⟨fun t => ?_, fun err => ?_, hscan.symm⟩
    · rw [hfile]
      constructor
      · rintro ⟨⟩
        exact ⟨id, rfl, htree⟩
      · rintro ⟨_, ⟨⟩, ht⟩
        rw [Option.some.inj (htree.symm.trans ht)]
    · rw [hfile]
      exact iff_of_false (fun h => by cases h) fun h => by cases h

/-- An index that has more than the project has a file. -/
theorem length_query_file_pos (hnew : new config grammar = .ok (fresh, events))
    (history : List Request) (hfiles : (fresh.after history).index.isEmpty = false) :
    0 < ((fresh.after history).index.query .file).length := by
  obtain ⟨t, ht, -, hkinds⟩ := (steps_after fresh history).files
    (P := fun tree => tree.kind = .file) (fun _ _ _ _ hscan => (Engine.file_of_scan hscan).1)
    ⟨_, represents_of_new hnew, rfl, fun c hc => absurd hc List.not_mem_nil⟩
  rw [ht.length_query, t.countKind_eq]
  cases hchildren : t.children with
  | nil =>
      -- A project without files is the only unit.
      rw [isEmpty, ht.size_eq, UnitTree.unitCount_eq, hchildren] at hfiles
      cases hfiles
  | cons c rest =>
      have hc : c.kind = .file := hkinds c (hchildren ▸ List.mem_cons_self)
      have hcount : c.countKind .file = 1 + UnitTree.countKinds c.children .file := by
        rw [c.countKind_eq, if_pos hc]
      have happend := UnitTree.countKinds_append [c] rest .file
      rw [List.singleton_append] at happend
      rw [happend]
      change 0 < _ + (c.countKind .file + _)
      omega

/-- A scanner with a file already gives no tree of a single file. -/
theorem scanSingleFile_ne_ok (hnew : new config grammar = .ok (fresh, events))
    (history : List Request) (hfiles : (fresh.after history).index.isEmpty = false) (read : Reader)
    (path : String) (t : UnitTree α) :
    ((fresh.after history).scanSingleFile read path).result ≠ .ok t := by
  obtain ⟨project, hproject⟩ := represents_after hnew history
  have hbefore := length_query_file_pos hnew history hfiles
  rcases scanSingleFile_cases hproject read path with ⟨err, -, hsingle⟩ |
    ⟨id, tree, files, -, -, hscan, hcount, hsingle⟩
  · rw [hsingle]
    exact fun h => by cases h
  · obtain ⟨text, -, htext⟩ := Engine.exists_scan_of_scanRequest (r := .path read path) hscan
    rw [Engine.countKind_file_of_scan htext] at hcount
    rw [hsingle, if_neg (by omega)]
    exact fun h => by cases h

end

variable {config : ScannerConfig σ α} {grammar : Grammar} {fresh : Scanner σ α}
  {events : List (Event α)}

/-- The scan of a single file against the scan of a file.  For a fresh
scanner whose extractors claim no files, the first gives the tree of the id
that the second gives, just as the pass over the file made it, or fails the
same way.  A scanner that has taken in a file gives no tree that way, whatever
its extractors are.  So for JavaScript: the scan of a single regular file
comes to what a scanner with the standard options comes to. -/
theorem scanSingleFile_agrees (hnew : new config grammar = .ok (fresh, events)) (read : Reader)
    (path : String) :
    ((∀ x ∈ config.extractors, x.ClaimsNoFile) →
      fresh.Agrees read path (fresh.scanSingleFile read path).result) ∧
    (∀ history, (fresh.after history).index.isEmpty = false →
      ∀ t, ((fresh.after history).scanSingleFile read path).result ≠ .ok t) ∧
    ∀ (parser : String → Option RawNode) (isFile : String → Bool)
      (extraVisitors : List (Visitor FileMemory α)), isFile path = true →
      let made := new (JavaScript.config .standard [] extraVisitors) (JavaScript.grammar parser)
      let result := (JavaScript.scanSingleFile parser isFile read path extraVisitors).result
      (∀ err, made = .error err → result = .error err) ∧
      ∀ sc evs, made = .ok (sc, evs) → sc.Agrees read path result := by
  refine ⟨fun hclaims => agrees_of_new hnew hclaims read path,
    fun history hfiles => scanSingleFile_ne_ok hnew history hfiles read path, ?_⟩
  intro parser isFile extraVisitors hfile made result
  refine ⟨fun err hmade => ?_, fun sc evs hmade => ?_⟩
  · have hnew : new (JavaScript.config .standard [] extraVisitors) (JavaScript.grammar parser) = _ :=
      hmade
    simp only [result, JavaScript.scanSingleFile, hfile, hnew, Bool.not_true, Bool.false_eq_true,
      if_false]
  · have hclaims : ∀ x ∈ (JavaScript.config .standard [] extraVisitors).extractors,
        x.ClaimsNoFile :=
      fun x hx => (JavaScript.claimsNested_extractors .standard x hx).claimsNoFile
    have hagrees := agrees_of_new hmade hclaims read path
    have hnew : new (JavaScript.config .standard [] extraVisitors) (JavaScript.grammar parser) = _ :=
      hmade
    simp only [result, JavaScript.scanSingleFile, hfile, hnew, Bool.not_true, Bool.false_eq_true,
      if_false]
    exact hagrees

/-! ### One function in a file -/

/-- A program that is a function, for every text. -/
def functionParser : String → Option RawNode := fun _ =>
  let label (kind : String) : RawLabel :=
    ⟨kind, none, 0, 3, ⟨0, 0⟩, ⟨0, 3⟩, false, false, false⟩
  some ⟨label "program", [⟨label "function_declaration", [⟨label "identifier", []⟩]⟩]⟩

/-- Reads a text at one path. -/
def readA (path : String) : Except IoFault String :=
  if path = "a.js" then .ok "fun" else .error .notFound

theorem scanSingleFile_agrees_function :
    ∃ fresh events,
      new (JavaScript.config .standard [] [] : ScannerConfig FileMemory Nat)
        (JavaScript.grammar functionParser) = .ok (fresh, events) ∧
      (∀ x ∈ (JavaScript.config .standard [] [] : ScannerConfig FileMemory Nat).extractors,
        x.ClaimsNoFile) ∧
      (fresh.scanSingleFile readA "a.js").result.map (·.unitCount) = .ok 2 ∧
      fresh.Agrees readA "a.js" (fresh.scanSingleFile readA "a.js").result ∧
      (fresh.after [.file (.text "b.js" "fun")]).index.isEmpty = false ∧
      (∀ t, ((fresh.after [.file (.text "b.js" "fun")]).scanSingleFile readA "a.js").result ≠
        .ok t) ∧
      fresh.Agrees readA "a.js"
        (JavaScript.scanSingleFile functionParser (fun _ => true) readA "a.js" []).result := by
  have hnew : new (JavaScript.config .standard [] [] : ScannerConfig FileMemory Nat)
      (JavaScript.grammar functionParser) = .ok (_, _) := rfl
  have hclaims : ∀ x ∈
      (JavaScript.config .standard [] [] : ScannerConfig FileMemory Nat).extractors,
      x.ClaimsNoFile :=
    fun x hx => (JavaScript.claimsNested_extractors .standard x hx).claimsNoFile
  obtain ⟨hfresh, hlater, hscript⟩ := scanSingleFile_agrees hnew readA "a.js"
  refine ⟨_, _, hnew, hclaims, by decide +kernel, hfresh hclaims, by decide +kernel, ?_, ?_⟩
  · exact hlater [.file (.text "b.js" "fun")] (by decide +kernel)
  · exact (hscript functionParser (fun _ => true) [] rfl).2 _ _ hnew

/-- An extractor that claims a file within a file makes two of it, and the
scan of a single file fails where the scan of the file does not. -/
example : ∃ fresh events, new misclaiming moduleAndWorkspace = .ok (fresh, events) ∧
    (fresh.scanFile (fun _ => .ok "x") "a").result = .ok 1 ∧
    (fresh.scanSingleFile (fun _ => .ok "x") "a").result.map (·.unitCount) =
      .error (.invariant (.notOneFile 2)) :=
  ⟨_, _, rfl, by decide +kernel, by decide +kernel⟩

end Scanner
end SourceMetrics
