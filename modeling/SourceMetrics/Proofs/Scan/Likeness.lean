/-
# Scanners that answer alike

Two scanners of one engine may have visitors in different states, and
indexes that differ in what these visitors wrote, and still give the same
answers to any requests.  A `Likeness` says in what respect their parts are
alike: three relations, on states, trees and indexes, that a scan, a copy of
the visitors and an insertion keep.

    states  ──scan──▸  trees  ──insert──▸  indexes
      ∼                  ∼                    ∼
    states  ──scan──▸  trees  ──insert──▸  indexes

From these three steps the rest follows without a look into them: alike
scanners serve every request with the same reply and are alike afterwards
(`Likeness.serve`), and so for any list of requests (`Likeness.replies_eq`,
`Likeness.after`).

There are two of use.  With any visitors, trees are alike that have the same
shape (`Likeness.byShape`): ids and refusals rest on nothing else.  With
visitors that reset, states of the same setup lead to equal trees and equal
indexes (`Likeness.bySetup`).  So a scanner whose visitors are put into other
states gives the same replies (`Scanner.replies_of_memories`), and, where the
setup is the same, comes to the same index
(`Scanner.index_after_of_memories`).
-/
import Mathlib.Data.List.Forall2
import SourceMetrics.Proofs.Scan.History
import SourceMetrics.Proofs.Unit.Queries

namespace SourceMetrics

variable {σ α κ : Type}

/-! ## Alike results -/

/-- Two computations end in the same error, or in related values. -/
inductive SameEnd {ε A B : Type} (R : A → B → Prop) : Except ε A → Except ε B → Prop
  | ok {a : A} {b : B} : R a b → SameEnd R (.ok a) (.ok b)
  | error (err : ε) : SameEnd R (.error err) (.error err)

theorem SameEnd.refl {ε A : Type} {R : A → A → Prop} (hR : ∀ a, R a a) (x : Except ε A) :
    SameEnd R x x := by
  cases x with
  | ok a => exact .ok (hR a)
  | error err => exact .error err

/-- A search that tells related members alike ends with related members. -/
theorem find?_of_forall₂ {A B : Type} {R : A → B → Prop} {p : A → Bool} {q : B → Bool}
    (hpq : ∀ a b, R a b → p a = q b) {as : List A} {bs : List B} (h : List.Forall₂ R as bs) :
    (as.find? p = none ∧ bs.find? q = none) ∨
      ∃ a b, as.find? p = some a ∧ bs.find? q = some b ∧ R a b := by
  induction h with
  | nil => exact .inl ⟨rfl, rfl⟩
  | @cons a b as bs hab _ ih =>
      rw [List.find?_cons, List.find?_cons, ← hpq a b hab]
      cases p a with
      | true => exact .inr ⟨a, b, rfl, rfl, hab⟩
      | false => exact ih

variable [Amount α]

/-- In what respect states, trees and indexes are alike, such that scans,
copies and insertions keep it. -/
structure Likeness (e : Engine σ α) where
  memories : List σ → List σ → Prop
  trees : UnitTree α → UnitTree α → Prop
  indexes : UnitIndex α → UnitIndex α → Prop
  scan : ∀ {ms ms' : List σ}, memories ms ms' → ∀ key text : String,
    SameEnd trees (e.scan ms key text).result (e.scan ms' key text).result ∧
      memories (e.scan ms key text).memories (e.scan ms' key text).memories
  fork : ∀ {ms ms' : List σ}, memories ms ms' → memories (e.forkMemories ms) (e.forkMemories ms')
  insert : ∀ {index index' : UnitIndex α} {tree tree' : UnitTree α},
    indexes index index' → trees tree tree' →
    SameEnd (fun taken taken' => taken.1 = taken'.1 ∧ indexes taken.2 taken'.2)
      (index.insert tree) (index'.insert tree')

namespace Likeness

open Scanner

variable {e : Engine σ α} (L : Likeness e)

/-- Two scanners are alike in all their parts. -/
structure Scanners (sc sc' : Scanner σ α) : Prop where
  engine : sc.engine = e
  engine' : sc'.engine = e
  memories : L.memories sc.memories sc'.memories
  indexes : L.indexes sc.index sc'.index
  cancelled : sc.cancelled = sc'.cancelled

/-- Two sessions come to the same report or error and to alike scanners. -/
structure Sessions (s s' : Session σ α) : Prop where
  result : s.result = s'.result
  scanners : L.Scanners s.scanner s'.scanner

/-- Two findings are of the same file and come to the same error or to alike
trees. -/
structure Findings (f f' : Finding α) : Prop where
  position : f.position = f'.position
  result : SameEnd L.trees f.result f'.result

section
variable {L} {sc sc' : Scanner σ α}

theorem Scanners.scanned (h : L.Scanners sc sc') {ms ms' : List σ} (hms : L.memories ms ms') :
    L.Scanners { sc with memories := ms } { sc' with memories := ms' } :=
  ⟨h.engine, h.engine', hms, h.indexes, h.cancelled⟩

theorem Scanners.taken (h : L.Scanners sc sc') {index index' : UnitIndex α}
    (hindex : L.indexes index index') :
    L.Scanners { sc with index := index } { sc' with index := index' } :=
  ⟨h.engine, h.engine', h.memories, hindex, h.cancelled⟩

theorem Scanners.cancel (h : L.Scanners sc sc') : L.Scanners sc.cancel sc'.cancel :=
  ⟨h.engine, h.engine', h.memories, h.indexes, rfl⟩

end

/-! ## One request -/

theorem scanRequest {ms ms' : List σ} (hms : L.memories ms ms') (r : FileRequest) :
    SameEnd L.trees (e.scanRequest ms r).result (e.scanRequest ms' r).result ∧
      L.memories (e.scanRequest ms r).memories (e.scanRequest ms' r).memories := by
  rw [Engine.scanRequest_eq, Engine.scanRequest_eq]
  cases r.content with
  | error fault => exact ⟨.error _, hms⟩
  | ok text => exact L.scan hms r.key text

theorem takeIn {sc sc' : Scanner σ α} (h : L.Scanners sc sc') {scan scan' : Engine.Scan σ α}
    (hresult : SameEnd L.trees scan.result scan'.result)
    (hms : L.memories scan.memories scan'.memories) :
    (sc.takeIn scan).result = (sc'.takeIn scan').result ∧
      L.Scanners (sc.takeIn scan).scanner (sc'.takeIn scan').scanner := by
  have hscanned := h.scanned hms
  obtain ⟨result, memories, events⟩ := scan
  obtain ⟨result', memories', events'⟩ := scan'
  rw [Scanner.takeIn, Scanner.takeIn]
  cases hresult with
  | error err => exact ⟨rfl, hscanned⟩
  | @ok tree tree' htree =>
      have hinsert := L.insert h.indexes htree
      dsimp only
      generalize sc.index.insert tree = taken at hinsert
      generalize sc'.index.insert tree' = taken' at hinsert
      cases hinsert with
      | error err => exact ⟨rfl, hscanned⟩
      | ok hboth => exact ⟨congrArg Except.ok hboth.1, hscanned.taken hboth.2⟩

theorem scanOne {sc sc' : Scanner σ α} (h : L.Scanners sc sc') (r : FileRequest) :
    (sc.scanOne r).result = (sc'.scanOne r).result ∧
      L.Scanners (sc.scanOne r).scanner (sc'.scanOne r).scanner := by
  obtain ⟨hresult, hms⟩ := L.scanRequest h.memories r
  rw [scanOne_eq, scanOne_eq, h.engine, h.engine']
  exact L.takeIn h hresult hms

theorem scanFrom (read : Reader) (stopAfter : Option Nat) {sc sc' : Scanner σ α}
    (h : L.Scanners sc sc') (seen : Nat) (report : ScanReport) (paths : List String) :
    L.Sessions (Scanner.scanFrom read stopAfter sc seen report paths)
      (Scanner.scanFrom read stopAfter sc' seen report paths) := by
  induction paths generalizing sc sc' seen report with
  | nil => exact ⟨rfl, h⟩
  | cons path rest ih =>
      rw [Scanner.scanFrom, Scanner.scanFrom, ← h.cancelled]
      cases sc.cancelled with
      | true => exact ⟨rfl, h⟩
      | false =>
          simp only [Bool.false_eq_true, if_false]
          have hone := L.scanOne h (.path read path)
          obtain ⟨hresult, hscanner⟩ : (sc.scanFile read path).result =
                (sc'.scanFile read path).result ∧
              L.Scanners (sc.scanFile read path).scanner (sc'.scanFile read path).scanner := hone
          have hnext : L.Scanners
              (if asksToStop stopAfter (seen + 1) then (sc.scanFile read path).scanner.cancel
                else (sc.scanFile read path).scanner)
              (if asksToStop stopAfter (seen + 1) then (sc'.scanFile read path).scanner.cancel
                else (sc'.scanFile read path).scanner) := by
            split
            · exact hscanner.cancel
            · exact hscanner
          rw [← hresult]
          cases (sc.scanFile read path).result with
          | ok id =>
              obtain ⟨hrest, hlast⟩ := ih hnext (seen + 1) (report.addScanned id)
              exact ⟨hrest, hlast⟩
          | error err =>
              cases hrecord : (recordFailure report path err :
                  Except ScanError (ScanReport × Event α)) with
              | error err =>
                  simp only [hrecord]
                  exact ⟨rfl, hnext⟩
              | ok recorded =>
                  simp only [hrecord]
                  obtain ⟨hrest, hlast⟩ := ih hnext (seen + 1) recorded.1
                  exact ⟨hrest, hlast⟩

/-- Workers with alike visitors find alike trees. -/
theorem work (read : Reader) (paths : List String) (misses : Nat → Bool) {ms ms' : List σ}
    (hms : L.memories ms ms') (positions : List Nat) :
    List.Forall₂ L.Findings (Scanner.work e read paths misses ms positions)
      (Scanner.work e read paths misses ms' positions) := by
  induction positions generalizing ms ms' with
  | nil => exact .nil
  | cons position rest ih =>
      rw [Scanner.work, Scanner.work]
      cases paths[position]? with
      | none => exact ih hms
      | some path =>
          cases misses position with
          | true => exact ih hms
          | false =>
              obtain ⟨hresult, hnext⟩ := L.scanRequest hms (.path read path)
              exact .cons ⟨rfl, hresult⟩ (ih hnext)

theorem collect {findings findings' : List (Finding α)}
    (hfindings : List.Forall₂ L.Findings findings findings') {sc sc' : Scanner σ α}
    (h : L.Scanners sc sc') (position : Nat) (report : ScanReport) (paths : List String) :
    L.Sessions (Scanner.collect findings sc position report paths)
      (Scanner.collect findings' sc' position report paths) := by
  induction paths generalizing sc sc' position report with
  | nil => exact ⟨rfl, h⟩
  | cons path rest ih =>
      rw [Scanner.collect, Scanner.collect]
      have hsame : ∀ f f', L.Findings f f' →
          decide (f.position = position) = decide (f'.position = position) := by
        intro f f' hf
        rw [hf.position]
      rcases find?_of_forall₂ hsame hfindings with ⟨hnone, hnone'⟩ | ⟨f, f', hf, hf', hlike⟩
      · rw [hnone, hnone']
        exact ih h _ _
      · rw [hf, hf']
        have hresult := hlike.result
        dsimp only
        generalize f.result = result at hresult
        generalize f'.result = result' at hresult
        cases hresult with
        | error err =>
            cases hrecord : (recordFailure report path err :
                Except ScanError (ScanReport × Event α)) with
            | error err =>
                simp only [hrecord]
                exact ⟨rfl, h⟩
            | ok recorded =>
                simp only [hrecord]
                obtain ⟨hrest, hlast⟩ := ih h (position + 1) recorded.1
                exact ⟨hrest, hlast⟩
        | @ok tree tree' htree =>
            have hinsert := L.insert h.indexes htree
            dsimp only
            generalize sc.index.insert tree = taken at hinsert
            generalize sc'.index.insert tree' = taken' at hinsert
            cases hinsert with
            | error err => exact ⟨rfl, h⟩
            | @ok taken taken' hboth =>
                dsimp only
                rw [hboth.1]
                exact ih (h.taken hboth.2) _ _

/-- Alike scanners serve a request with the same reply, and are alike
afterwards. -/
theorem serve {sc sc' : Scanner σ α} (h : L.Scanners sc sc') (request : Request) :
    (sc.serve request).1 = (sc'.serve request).1 ∧
      L.Scanners (sc.serve request).2 (sc'.serve request).2 := by
  cases request with
  | file r =>
      obtain ⟨hresult, hscanner⟩ := L.scanOne h r
      exact ⟨congrArg Reply.id hresult, hscanner⟩
  | files read stopAfter paths =>
      obtain ⟨hresult, hscanner⟩ := L.scanFrom read stopAfter h 0 .empty paths
      exact ⟨congrArg Reply.report hresult, hscanner⟩
  | filesParallel read d paths =>
      have hworkers : List.Forall₂ Eq d.workers d.workers := List.forall₂_refl d.workers
      have hfindings : List.Forall₂ L.Findings
          (d.workers.flatMap (Scanner.work e read paths
            (fun position => sc.cancelled || d.misses position) (e.forkMemories sc.memories)))
          (d.workers.flatMap (Scanner.work e read paths
            (fun position => sc.cancelled || d.misses position) (e.forkMemories sc'.memories))) := by
        refine List.rel_flatMap hworkers ?_
        rintro positions _ rfl
        exact L.work read paths _ (L.fork h.memories) positions
      obtain ⟨hresult, hscanner⟩ := L.collect hfindings h 0 .empty paths
      rw [Scanner.serve, Scanner.serve, scanFilesParallel, scanFilesParallel, h.engine, h.engine',
        ← h.cancelled]
      exact ⟨congrArg Reply.report hresult, hscanner⟩
  | cancel => exact ⟨rfl, h.cancel⟩

/-! ## Any requests -/

theorem replies_eq {sc sc' : Scanner σ α} (h : L.Scanners sc sc') (requests : List Request) :
    sc.replies requests = sc'.replies requests := by
  induction requests generalizing sc sc' with
  | nil => rfl
  | cons request rest ih =>
      obtain ⟨hreply, hnext⟩ := L.serve h request
      rw [replies, replies, hreply, ih hnext]

theorem after {sc sc' : Scanner σ α} (h : L.Scanners sc sc') (requests : List Request) :
    L.Scanners (sc.after requests) (sc'.after requests) := by
  induction requests generalizing sc sc' with
  | nil => exact h
  | cons request rest ih => exact ih (L.serve h request).2

end Likeness

/-! ## Trees of the same shape -/

namespace UnitIndex

open UnitTree

/-- Both indexes represent a project with files of the same shapes. -/
def SameFiles (index index' : UnitIndex α) : Prop :=
  ∃ t t' : UnitTree α, index.Represents t ∧ index'.Represents t' ∧
    shapeList t.children = shapeList t'.children

/-- Whether a tree is refused and which id it gets rests on the shapes. -/
theorem SameFiles.insert {index index' : UnitIndex α} (h : SameFiles index index')
    {tree tree' : UnitTree α} (htree : tree.shape = tree'.shape) :
    SameEnd (fun taken taken' => taken.1 = taken'.1 ∧ SameFiles taken.2 taken'.2)
      (index.insert tree) (index'.insert tree') := by
  obtain ⟨t, t', ht, ht', hshapes⟩ := h
  have hspec : tree.spec = tree'.spec := by
    rw [← shape_unit, htree, shape_unit]
  have hkind : tree.kind = tree'.kind := congrArg UnitSpec.kind hspec
  have hkey : tree.key = tree'.key := congrArg UnitSpec.key hspec
  have hkeys : t.children.map (·.key) = t'.children.map (·.key) := by
    rw [← map_key_shapeList, hshapes, map_key_shapeList]
  have hholds : index.holdsFile tree.key = index'.holdsFile tree'.key := by
    rw [Bool.eq_iff_iff, ht.holdsFile_iff, ht'.holdsFile_iff, hkeys, hkey]
  rcases index.insert_cases tree with ⟨htaken, herror⟩ | ⟨hfree, id, next, hok⟩
  · rcases index'.insert_cases tree' with ⟨-, herror'⟩ | ⟨hfree', -⟩
    · rw [herror, herror', hkind, hkey]
      exact .error _
    · rw [hholds, hfree'] at htaken
      cases htaken
  · rcases index'.insert_cases tree' with ⟨htaken', -⟩ | ⟨-, id', next', hok'⟩
    · rw [hholds, htaken'] at hfree
      cases hfree
    · obtain ⟨hid, t₁, ht₁, hchildren⟩ := ht.insert hok
      obtain ⟨hid', t₁', ht₁', hchildren'⟩ := ht'.insert hok'
      rw [hok, hok']
      refine .ok ⟨?_, t₁, t₁', ht₁, ht₁', ?_⟩
      · rw [hid, hid', unitCount_eq, unitCount_eq, ← length_preorderList_shapeList,
          hshapes, length_preorderList_shapeList]
      · rw [shapeList_eq_map, shapeList_eq_map] at hshapes ⊢
        rw [hchildren, hchildren', List.map_append, List.map_append, hshapes, List.map_singleton,
          List.map_singleton, htree]

end UnitIndex

/-- Whatever the visitors have in mind, a text comes to the same parse error or
to trees of the same shape. -/
theorem Engine.sameShape_scan (e : Engine σ α) (ms ms' : List σ) (key text : String) :
    SameEnd (fun t t' : UnitTree α => t.shape = t'.shape) (e.scan ms key text).result
      (e.scan ms' key text).result := by
  rcases scan_cases e key text with ⟨fault, -, hscan⟩ | ⟨root, -, hscan⟩
  · rw [hscan ms, hscan ms']
    exact .error _
  · obtain ⟨tree, s, -, hend⟩ := hscan ms
    obtain ⟨tree', s', -, hend'⟩ := hscan ms'
    have hok : (e.scan ms key text).result = .ok tree := by rw [hend]
    have hok' : (e.scan ms' key text).result = .ok tree' := by rw [hend']
    obtain ⟨root₁, hroot₁, hshape⟩ := shape_of_scan hok
    obtain ⟨root₂, hroot₂, hshape'⟩ := shape_of_scan hok'
    obtain rfl := Except.ok.inj (hroot₁.symm.trans hroot₂)
    rw [hok, hok']
    exact .ok (hshape.trans hshape'.symm)

namespace Likeness

/-- With any visitors, the files of a project keep the same shapes. -/
def byShape (e : Engine σ α) : Likeness e where
  memories _ _ := True
  trees t t' := t.shape = t'.shape
  indexes := UnitIndex.SameFiles
  scan _ key text := ⟨e.sameShape_scan _ _ key text, trivial⟩
  fork _ := trivial
  insert h htree := h.insert htree

/-! ## States of the same setup -/

/-- With visitors that reset, indexes stay equal. -/
def bySetup (e : Engine σ α) (setup : Visitor σ α → σ → κ)
    (hreset : ∀ v ∈ e.visitors, v.Resets (setup v)) : Likeness e where
  memories := e.SameSetup setup
  trees := Eq
  indexes := Eq
  scan {ms ms'} hms key text := by
    refine ⟨?_, ?_⟩
    · rw [(Engine.scan_eq hreset hms key text).1]
      exact .refl (fun _ => rfl) _
    · have hfrom := Engine.sameSetup_scan hreset ms key text
      have hto := Engine.sameSetup_scan hreset ms' key text
      exact hfrom.symm.trans (hms.trans hto)
  fork {ms ms'} hms := by
    have hfrom := Engine.sameSetup_forkMemories hreset ms
    have hto := Engine.sameSetup_forkMemories hreset ms'
    exact hfrom.symm.trans (hms.trans hto)
  insert {index index' tree tree'} hindex htree := by
    subst hindex htree
    exact .refl (fun _ => ⟨rfl, rfl⟩) _

end Likeness

/-! ## Scanners that differ in the states of their visitors -/

namespace Scanner

/-- No answer rests on the states of the visitors. -/
theorem replies_of_memories {sc : Scanner σ α} (hsc : ∃ t, sc.index.Represents t) (ms : List σ)
    (requests : List Request) :
    replies { sc with memories := ms } requests = sc.replies requests := by
  obtain ⟨t, ht⟩ := hsc
  have hlike : (Likeness.byShape sc.engine).Scanners { sc with memories := ms } sc :=
    ⟨rfl, rfl, trivial, ⟨t, t, ht, ht, rfl⟩, rfl⟩
  exact Likeness.replies_eq _ hlike requests

/-- Where visitors reset, no index rests on more of their states than their
setup. -/
theorem index_after_of_memories {sc : Scanner σ α} {setup : Visitor σ α → σ → κ}
    (hreset : ∀ v ∈ sc.engine.visitors, v.Resets (setup v)) {ms : List σ}
    (hms : sc.engine.SameSetup setup sc.memories ms) (requests : List Request) :
    (after { sc with memories := ms } requests).index = (sc.after requests).index := by
  have hlike : (Likeness.bySetup sc.engine setup hreset).Scanners { sc with memories := ms } sc :=
    ⟨rfl, rfl, hms.symm, rfl, rfl⟩
  exact (Likeness.after _ hlike requests).indexes

end Scanner
end SourceMetrics
