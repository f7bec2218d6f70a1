/-
# A session in order, file by file

A session in order scans one file after the other and takes each tree in.
As long as no two of the files that can be scanned share a key, and none of
these keys is taken (`Scanner.Apart`), the session goes through, and what it
comes to can be said outright:

    a file that cannot be read or parsed   is a failure of the report
    any other file                         gives a tree, and the tree an id

* `Engine.treesOf` lists the trees, with the states of the visitors handed on
  from file to file, and `Engine.failuresOf` the failures, which rest on the
  grammar alone.
* The index is the one that was offered these trees and accepted them all,
  and the ids in the report are those of their roots (`outcome_scanFrom_apart`).
-/
import SourceMetrics.Proofs.Scan.Forgetting

namespace SourceMetrics

open UnitIndex

variable {σ α κ : Type}

/-! ## Files that cannot be scanned -/

namespace FileRequest

/-- Why a file cannot be scanned, whatever files there are. -/
def unscannable? (r : FileRequest) (grammar : Grammar) : Option ScanError :=
  match r.content with
  | .error fault => some (.io r.key fault)
  | .ok words =>
    match grammar.parse words with
    | .error fault => some (.parse r.key fault)
    | .ok _ => none

/-- The keys of the files that can be scanned. -/
def scannedKeys (grammar : Grammar) (rs : List FileRequest) : List String :=
  (rs.filter fun r => (r.unscannable? grammar).isNone).map key

theorem scannedKeys_cons (grammar : Grammar) (r : FileRequest) (rs : List FileRequest) :
    scannedKeys grammar (r :: rs) =
      match r.unscannable? grammar with
      | some _ => scannedKeys grammar rs
      | none => r.key :: scannedKeys grammar rs := by
  unfold scannedKeys
  rw [List.filter_cons]
  cases r.unscannable? grammar <;> rfl

end FileRequest

open FileRequest

namespace Engine

variable [Amount α]

/-- A file that cannot be scanned leaves the visitors as they were; any other
gives a tree of its key. -/
theorem scanRequest_unscannable (e : Engine σ α) (ms : List σ) (r : FileRequest) :
    (∃ err, r.unscannable? e.grammar = some err ∧ err.isFileScoped ∧
      e.scanRequest ms r = ⟨.error err, ms, []⟩) ∨
    ∃ tree, r.unscannable? e.grammar = none ∧ (e.scanRequest ms r).result = .ok tree ∧
      tree.key = r.key := by
  rw [scanRequest_eq, unscannable?]
  cases r.content with
  | error fault => exact .inl ⟨_, rfl, rfl, rfl⟩
  | ok text =>
      dsimp only
      rcases scan_cases e r.key text with ⟨fault, hparse, hscan⟩ | ⟨root, hparse, hscan⟩
      · rw [hparse]
        exact .inl ⟨_, rfl, rfl, hscan ms⟩
      · obtain ⟨tree, s, -, hend⟩ := hscan ms
        have hresult : (e.scan ms r.key text).result = .ok tree := by rw [hend]
        rw [hparse]
        exact .inr ⟨tree, rfl, hresult, (file_of_scan hresult).2⟩

/-- The failures of files that are scanned in order. -/
def failuresOf (e : Engine σ α) (rs : List FileRequest) : List FileFailure :=
  rs.filterMap fun r => (r.unscannable? e.grammar).map (⟨r.key, ·⟩)

omit [Amount α] in
theorem failuresOf_cons (e : Engine σ α) (r : FileRequest) (rs : List FileRequest) :
    e.failuresOf (r :: rs) =
      ((r.unscannable? e.grammar).map (⟨r.key, ·⟩)).toList ++ e.failuresOf rs := by
  rw [failuresOf, List.filterMap_cons, failuresOf]
  cases r.unscannable? e.grammar <;> rfl

omit [Amount α] in
/-- No file is passed over. -/
theorem mem_failuresOf_or_mem_scannedKeys (e : Engine σ α) {r : FileRequest}
    {rs : List FileRequest} (h : r ∈ rs) :
    (∃ failure ∈ e.failuresOf rs, failure.file = r.key) ∨ r.key ∈ scannedKeys e.grammar rs := by
  cases hr : r.unscannable? e.grammar with
  | some err =>
      refine .inl ⟨⟨r.key, err⟩, List.mem_filterMap.mpr ⟨r, h, ?_⟩, rfl⟩
      rw [hr]
      rfl
  | none =>
      refine .inr (List.mem_map.mpr ⟨r, List.mem_filter.mpr ⟨h, ?_⟩, rfl⟩)
      rw [hr]
      rfl

/-- The trees of files that are scanned in order, from the given states of
the visitors. -/
def treesOf (e : Engine σ α) (ms : List σ) : List FileRequest → List (UnitTree α)
  | [] => []
  | r :: rest =>
    (e.scanRequest ms r).result.toOption.toList ++ treesOf e (e.scanRequest ms r).memories rest

theorem treesOf_cons_of_error {e : Engine σ α} {ms : List σ} {r : FileRequest} {err : ScanError}
    (h : e.scanRequest ms r = ⟨.error err, ms, []⟩) (rest : List FileRequest) :
    e.treesOf ms (r :: rest) = e.treesOf ms rest := by
  rw [treesOf, h]
  rfl

theorem treesOf_cons_of_ok {e : Engine σ α} {ms : List σ} {r : FileRequest} {tree : UnitTree α}
    (h : (e.scanRequest ms r).result = .ok tree) (rest : List FileRequest) :
    e.treesOf ms (r :: rest) = tree :: e.treesOf (e.scanRequest ms r).memories rest := by
  rw [treesOf, h]
  rfl

/-- There is a tree for each file that can be scanned, in order. -/
theorem map_key_treesOf (e : Engine σ α) (ms : List σ) (rs : List FileRequest) :
    (e.treesOf ms rs).map (·.key) = scannedKeys e.grammar rs := by
  induction rs generalizing ms with
  | nil => rfl
  | cons r rest ih =>
      rcases e.scanRequest_unscannable ms r with ⟨err, herr, -, hscan⟩ | ⟨tree, hnone, hscan, hkey⟩
      · rw [treesOf_cons_of_error hscan, scannedKeys_cons, herr, ih]
      · rw [treesOf_cons_of_ok hscan, scannedKeys_cons, hnone, List.map_cons, ih, hkey]

/-- Where visitors start every file anew, each tree is that of its file
alone. -/
theorem treesOf_eq_filterMap {e : Engine σ α} {setup : Visitor σ α → σ → κ}
    (hreset : ∀ v ∈ e.visitors, v.Resets (setup v)) {ms ms' : List σ}
    (hms : e.SameSetup setup ms ms') (rs : List FileRequest) :
    e.treesOf ms' rs = rs.filterMap fun r => (e.scanRequest ms r).result.toOption := by
  induction rs generalizing ms' with
  | nil => rfl
  | cons r rest ih =>
      have hleads : e.Leads ms' (e.scanRequest ms' r).memories := Leads.refl.scanRequest r
      have hrest := ih (hms.trans (hleads.sameSetup hreset))
      rw [treesOf, hrest, ← scanRequest_result_eq hreset hms r, List.filterMap_cons]
      cases (e.scanRequest ms r).result with
      | error err => rfl
      | ok tree => rfl

end Engine

/-! ## Keys apart -/

namespace UnitIndex

variable [Amount α]

/-- A free key is still free when a tree of another key was taken in. -/
theorem free_insert {index index' : UnitIndex α} {t tree : UnitTree α} {id : Nat}
    (h : index.Represents t) (hinsert : index.insert tree = .ok (id, index')) {key : String}
    (hfree : index.holdsFile key = false) (hne : key ≠ tree.key) : index'.holdsFile key = false := by
  obtain ⟨-, t', ht', hchildren⟩ := h.insert hinsert
  rw [← Bool.not_eq_true, h.holdsFile_iff] at hfree
  rw [← Bool.not_eq_true, ht'.holdsFile_iff, hchildren, List.map_append, List.mem_append, not_or]
  exact ⟨hfree, fun hkey => hne (List.mem_singleton.mp hkey)⟩

/-- Trees whose keys are free, no two of them the same, are all accepted. -/
theorem Represents.accepted_eq_self {index : UnitIndex α} {t : UnitTree α}
    (h : index.Represents t) {trees : List (UnitTree α)} (hnodup : (trees.map (·.key)).Nodup)
    (hfree : ∀ key ∈ trees.map (·.key), index.holdsFile key = false) :
    index.accepted trees = trees := by
  induction trees generalizing index t with
  | nil => rfl
  | cons tree rest ih =>
      rw [List.map_cons] at hnodup hfree
      obtain ⟨hfresh, hrest⟩ := List.nodup_cons.mp hnodup
      obtain ⟨hfirst, hothers⟩ := List.forall_mem_cons.mp hfree
      rcases index.insert_cases tree with ⟨htaken, -⟩ | ⟨-, id, index', hinsert⟩
      · rw [hfirst] at htaken
        cases htaken
      · obtain ⟨-, t', ht', -⟩ := h.insert hinsert
        have hstill : ∀ key ∈ rest.map (·.key), index'.holdsFile key = false := by
          intro key hkey
          exact free_insert h hinsert (hothers key hkey) fun heq => hfresh (heq ▸ hkey)
        simp only [accepted, hinsert, ih ht' hrest hstill]

omit [Amount α] in
/-- Where trees are laid out side by side, each is given back under its id. -/
theorem map_toTree_childIds {index : UnitIndex α} {parent next : Nat} {ts : List (UnitTree α)}
    (h : index.Holds next (UnitTree.numberList parent next ts)) :
    (UnitTree.childIds next ts).map index.toTree = ts.map some := by
  induction ts generalizing next with
  | nil => rfl
  | cons t ts ih =>
      obtain ⟨hfirst, hrest⟩ := h.cons
      rw [UnitTree.childIds, List.map_cons, List.map_cons, ih hrest,
        toTree_of_holds (some parent) next t hfirst]

/-- Trees whose keys are free, no two of them the same, are given back under
their ids once they are taken in. -/
theorem Represents.taken {index : UnitIndex α} {t : UnitTree α} (h : index.Represents t)
    {trees : List (UnitTree α)} (hnodup : (trees.map (·.key)).Nodup)
    (hfree : ∀ key ∈ trees.map (·.key), index.holdsFile key = false) :
    (UnitTree.childIds index.size trees).map (index.offerAll trees).toTree = trees.map some := by
  obtain ⟨t', ht', hchildren⟩ := h.offerAll trees
  rw [h.accepted_eq_self hnodup hfree] at hchildren
  -- The trees are laid out behind those of before.
  obtain ⟨-, hbelow⟩ := ht'.holds.root
  rw [hchildren, UnitTree.numberList_append] at hbelow
  have hright := hbelow.right
  have hsize : index.size = projectId + 1 + UnitTree.unitCountList t.children :=
    h.size_eq.trans t.unitCount_eq
  rw [UnitTree.length_numberList, ← hsize] at hright
  exact map_toTree_childIds hright

theorem offerAll_cons_of_insert {index index' : UnitIndex α} {tree : UnitTree α} {id : Nat}
    (hinsert : index.insert tree = .ok (id, index')) (trees : List (UnitTree α)) :
    index.offerAll (tree :: trees) = index'.offerAll trees := by
  rw [offerAll, List.foldl_cons, offer, hinsert]
  rfl

end UnitIndex

namespace Scanner

variable [Amount α]

/-- No two of the files that can be scanned share a key, and no key of them
is taken. -/
structure Apart (sc : Scanner σ α) (rs : List FileRequest) : Prop where
  nodup : (scannedKeys sc.engine.grammar rs).Nodup
  free : ∀ key ∈ scannedKeys sc.engine.grammar rs, sc.index.holdsFile key = false

section
variable {sc : Scanner σ α} {r : FileRequest} {rs : List FileRequest}

omit [Amount α] in
theorem Apart.skip (h : sc.Apart (r :: rs)) {err : ScanError}
    (hr : r.unscannable? sc.engine.grammar = some err) : sc.Apart rs := by
  have hkeys : scannedKeys sc.engine.grammar (r :: rs) = scannedKeys sc.engine.grammar rs := by
    rw [scannedKeys_cons, hr]
  exact ⟨hkeys ▸ h.nodup, hkeys ▸ h.free⟩

omit [Amount α] in
/-- The first files are apart when all are. -/
theorem Apart.initial {done : List FileRequest} (h : sc.Apart rs) (hdone : done <+: rs) :
    sc.Apart done := by
  obtain ⟨left, rfl⟩ := hdone
  have hkeys : scannedKeys sc.engine.grammar (done ++ left) =
      scannedKeys sc.engine.grammar done ++ scannedKeys sc.engine.grammar left := by
    unfold scannedKeys
    rw [List.filter_append, List.map_append]
  have hnodup := h.nodup
  have hfree := h.free
  rw [hkeys] at hnodup hfree
  exact ⟨(List.nodup_append.mp hnodup).1, fun key hkey => hfree key (List.mem_append_left _ hkey)⟩

/-- The first file is taken in, and the keys of the others are still free. -/
theorem Apart.take (h : sc.Apart (r :: rs)) {t : UnitTree α} (ht : sc.index.Represents t)
    (hr : r.unscannable? sc.engine.grammar = none) {tree : UnitTree α} (hkey : tree.key = r.key) :
    ∃ index t', sc.index.insert tree = .ok (sc.index.size, index) ∧ index.Represents t' ∧
      index.size = sc.index.size + tree.unitCount ∧
      ∀ ms, Apart { sc with memories := ms, index := index } rs := by
  have hkeys : scannedKeys sc.engine.grammar (r :: rs) =
      r.key :: scannedKeys sc.engine.grammar rs := by
    rw [scannedKeys_cons, hr]
  have hnodup := h.nodup
  have hfree := h.free
  rw [hkeys] at hnodup hfree
  obtain ⟨hfresh, hrest⟩ := List.nodup_cons.mp hnodup
  rcases sc.index.insert_cases tree with ⟨htaken, -⟩ | ⟨-, id, index, hinsert⟩
  · rw [hkey, hfree r.key List.mem_cons_self] at htaken
    cases htaken
  · obtain ⟨hid, t', ht', hchildren⟩ := ht.insert hinsert
    have hsize : sc.index.size = t.unitCount := ht.size_eq
    rw [hid, ← hsize] at hinsert
    refine ⟨index, t', hinsert, ht', ?_, fun ms => ⟨hrest, fun key hmem => ?_⟩⟩
    · rw [hsize, UnitIndex.size, ht'.size_eq, UnitTree.unitCount_eq, UnitTree.unitCount_eq t,
        hchildren, UnitTree.unitCountList_eq_sum, UnitTree.unitCountList_eq_sum, List.map_append,
        List.sum_append, List.map_singleton, List.sum_singleton, Nat.add_assoc]
    · refine free_insert ht hinsert (hfree key (List.mem_cons_of_mem _ hmem)) fun heq => ?_
      rw [heq, hkey] at hmem
      exact hfresh hmem

/-- All trees are taken in, and each is given back under its id. -/
theorem Apart.taken (h : sc.Apart rs) {t : UnitTree α} (ht : sc.index.Represents t) :
    let trees := sc.engine.treesOf sc.memories rs
    (UnitTree.childIds sc.index.size trees).map (sc.index.offerAll trees).toTree =
      trees.map some := by
  intro trees
  have hkeys : trees.map (·.key) = scannedKeys sc.engine.grammar rs :=
    sc.engine.map_key_treesOf sc.memories rs
  exact ht.taken (hkeys ▸ h.nodup) (hkeys ▸ h.free)

theorem Apart.exists_taken (h : sc.Apart rs) {t : UnitTree α} (ht : sc.index.Represents t)
    {tree : UnitTree α} (htree : tree ∈ sc.engine.treesOf sc.memories rs) :
    let trees := sc.engine.treesOf sc.memories rs
    ∃ id ∈ UnitTree.childIds sc.index.size trees,
      (sc.index.offerAll trees).toTree id = some tree := by
  intro trees
  have hlisted : some tree ∈ trees.map some := List.mem_map_of_mem htree
  rw [← h.taken ht] at hlisted
  exact List.mem_map.mp hlisted

/-- The files that are taken in have the keys of those that can be scanned. -/
theorem Apart.map_key_taken (h : sc.Apart rs) {t : UnitTree α} (ht : sc.index.Represents t) :
    let trees := sc.engine.treesOf sc.memories rs
    (UnitTree.childIds sc.index.size trees).map
        (fun id => ((sc.index.offerAll trees).toTree id).map (·.key)) =
      (scannedKeys sc.engine.grammar rs).map some := by
  intro trees
  have hkeys := congrArg (List.map (Option.map (·.key))) (h.taken ht)
  rw [List.map_map, List.map_map] at hkeys
  rw [← sc.engine.map_key_treesOf sc.memories, List.map_map]
  exact hkeys

end

/-- A session of a cancelled scanner over some files does nothing. -/
theorem scanFrom_of_cancelled {sc : Scanner σ α} (h : sc.cancelled = true) (read : Reader)
    (stopAfter : Option Nat) (seen : Nat) (report : ScanReport) {paths : List String}
    (hpaths : paths ≠ []) :
    scanFrom read stopAfter sc seen report paths =
      ⟨.ok { report with cancelled := true }, sc, [.scanCancelled], []⟩ := by
  cases paths with
  | nil => exact absurd rfl hpaths
  | cons path rest => rw [scanFrom, if_pos h]

/-- A session in order over files whose keys are apart goes through.  Its
report lists the failures and the ids of the trees, and the index has been
offered the trees. -/
theorem outcome_scanFrom_apart {sc : Scanner σ α} {t : UnitTree α} (ht : sc.index.Represents t)
    (hcancelled : sc.cancelled = false) {read : Reader} {paths : List String}
    (h : sc.Apart (paths.map (.path read))) (seen : Nat) (report : ScanReport) :
    let rs := paths.map (.path read)
    let trees := sc.engine.treesOf sc.memories rs
    (scanFrom read none sc seen report paths).outcome =
      (.ok ⟨report.scanned ++ UnitTree.childIds sc.index.size trees,
        report.failures ++ sc.engine.failuresOf rs, report.cancelled⟩, sc.index.offerAll trees) := by
  induction paths generalizing sc t seen report with
  | nil =>
      intro rs trees
      have hids : UnitTree.childIds sc.index.size trees = [] := rfl
      have hfailures : sc.engine.failuresOf rs = [] := rfl
      rw [hids, hfailures, List.append_nil, List.append_nil]
      rfl
  | cons path rest ih =>
      intro rs trees
      have hfailures : sc.engine.failuresOf rs =
          (((FileRequest.path read path).unscannable? sc.engine.grammar).map (⟨path, ·⟩)).toList ++
            sc.engine.failuresOf (rest.map (.path read)) :=
        sc.engine.failuresOf_cons (.path read path) (rest.map (.path read))
      rw [outcome_scanFrom sc hcancelled]
      rcases sc.engine.scanRequest_unscannable sc.memories (.path read path) with
        ⟨err, herr, -, hscan⟩ | ⟨tree, hnone, hscan, hkey⟩
      · have hpath : sc.engine.scanPath read sc.memories path = ⟨.error err, sc.memories, []⟩ := hscan
        have htrees : trees = sc.engine.treesOf sc.memories (rest.map (.path read)) :=
          Engine.treesOf_cons_of_error hscan (rest.map (.path read))
        rw [hpath, hfailures, herr, htrees]
        refine (ih ht hcancelled (h.skip herr) (seen + 1) (report.addFailure ⟨path, err⟩)).trans ?_
        simp only [ScanReport.addFailure, List.append_assoc]
        rfl
      · obtain ⟨index, t', hinsert, ht', hsize, hapart⟩ := h.take ht hnone hkey
        have hpath : (sc.engine.scanPath read sc.memories path).result = .ok tree := hscan
        have htrees : trees = tree ::
            sc.engine.treesOf (sc.engine.scanPath read sc.memories path).memories
              (rest.map (.path read)) :=
          Engine.treesOf_cons_of_ok hscan (rest.map (.path read))
        let next : Scanner σ α :=
          { sc with
            memories := (sc.engine.scanPath read sc.memories path).memories
            index := index }
        have hnext : next.cancelled = false := hcancelled
        simp only [hpath, hinsert]
        rw [hfailures, hnone, htrees, UnitTree.childIds, offerAll_cons_of_insert hinsert, ← hsize]
        refine (ih ht' hnext (hapart _) (seen + 1) (report.addScanned sc.index.size)).trans ?_
        simp only [ScanReport.addScanned, List.append_assoc]
        rfl

end Scanner
end SourceMetrics
