/-
# Sessions on several workers that are cancelled in between

On several workers a session may be found cancelled at any file, by one
worker and not yet by another.  The files that are passed over then leave
holes in the list of paths, unlike in a session in order, which does the
first files and no others.

    paths        a   b   c   d   e
    misses           ×       ×
    kept         a       c       e

* Of the files that are kept the workers find trees (`Engine.Found`), in
  states of their visitors that nothing is known of.  The states have no say
  in the keys of the trees and in how many units they have, hence none in
  the report (`Found.childIds_eq`); where visitors start every file anew, they
  have none in the trees (`Found.eq_treesOf`).
* To collect what was found comes to a session in order over the files that
  are kept, and notes whether there are others (`outcome_collect_found`).
-/
import SourceMetrics.Proofs.Scan.Cancellation

namespace SourceMetrics

open UnitIndex FileRequest

variable {σ α κ : Type}

/-! ## Files at some positions -/

/-- The files whose positions pass a test, where the first file has the given
position. -/
def filesAt (test : Nat → Bool) (position : Nat) (paths : List String) : List String :=
  ((paths.zipIdx position).filter fun file => test file.2).map Prod.fst

section
variable (test : Nat → Bool) (position : Nat)

theorem filesAt_cons (path : String) (rest : List String) :
    filesAt test position (path :: rest) =
      (if test position then [path] else []) ++ filesAt test (position + 1) rest := by
  rw [filesAt, List.zipIdx_cons, List.filter_cons]
  split <;> rfl

theorem filesAt_sublist (paths : List String) : (filesAt test position paths).Sublist paths := by
  have hsublist := (List.filter_sublist (p := fun file => test file.2)
    (l := paths.zipIdx position)).map Prod.fst
  rwa [List.zipIdx_map_fst] at hsublist

/-- Every file passes the test or does not. -/
theorem filesAt_perm (paths : List String) :
    (filesAt (fun i => !test i) position paths ++ filesAt test position paths).Perm paths := by
  have hperm := (List.filter_append_perm (fun file => test file.2)
    (paths.zipIdx position)).map Prod.fst
  rw [List.zipIdx_map_fst, List.map_append] at hperm
  exact List.perm_append_comm.trans hperm

end

/-! ## Failures -/

theorem Engine.map_file_failuresOf (e : Engine σ α) (rs : List FileRequest) :
    (e.failuresOf rs).map (·.file) =
      (rs.filter fun r => !(r.unscannable? e.grammar).isNone).map key := by
  induction rs with
  | nil => rfl
  | cons r rest ih =>
      rw [failuresOf_cons, List.map_append, ih, List.filter_cons]
      cases r.unscannable? e.grammar <;> rfl

/-- Every file is scanned or fails, and none does both. -/
theorem Engine.scannedKeys_append_failuresOf (e : Engine σ α) (rs : List FileRequest) :
    (scannedKeys e.grammar rs ++ (e.failuresOf rs).map (·.file)).Perm (rs.map key) := by
  rw [e.map_file_failuresOf, scannedKeys, ← List.map_append]
  exact (List.filter_append_perm _ rs).map key

/-! ## Trees that were found -/

namespace UnitTree

/-- The ids of trees side by side rest on their shapes. -/
theorem childIds_eq_of_shapes {next : Nat} {ts us : List (UnitTree α)}
    (h : ts.map shape = us.map shape) : childIds next ts = childIds next us := by
  induction ts generalizing next us with
  | nil =>
      obtain rfl := List.map_eq_nil_iff.mp h.symm
      rfl
  | cons t ts ih =>
      obtain ⟨u, us, rfl, hshape, hshapes⟩ := List.map_eq_cons_iff.mp h.symm
      have hcount : t.unitCount = u.unitCount := by
        rw [← length_preorder_shape, ← length_preorder_shape, hshape]
      rw [childIds, childIds, hcount, ih hshapes.symm]

end UnitTree

namespace Engine

variable [Amount α]

/-- Trees were found for the files that can be scanned, in the order of the
files: each is what a scan gives, in states that the given ones led to. -/
inductive Found (e : Engine σ α) (ms : List σ) : List FileRequest → List (UnitTree α) → Prop
  | nil : Found e ms [] []
  | failed {r : FileRequest} {err : ScanError} {rest : List FileRequest}
      {trees : List (UnitTree α)} : r.unscannable? e.grammar = some err → Found e ms rest trees →
      Found e ms (r :: rest) trees
  | scanned {ms' : List σ} {r : FileRequest} {tree : UnitTree α} {rest : List FileRequest}
      {trees : List (UnitTree α)} : e.Leads ms ms' → (e.scanRequest ms' r).result = .ok tree →
      Found e ms rest trees → Found e ms (r :: rest) (tree :: trees)

variable {e : Engine σ α} {ms ms' : List σ} {r : FileRequest} {tree : UnitTree α}
  {rs : List FileRequest} {trees : List (UnitTree α)}

theorem unscannable_of_ok (h : (e.scanRequest ms r).result = .ok tree) :
    r.unscannable? e.grammar = none := by
  rcases e.scanRequest_unscannable ms r with ⟨err, -, -, hscan⟩ | ⟨-, hnone, -⟩
  · rw [hscan] at h
    cases h
  · exact hnone

/-- The states of the visitors have no say in the shape of a tree. -/
theorem shape_eq_of_ok {tree' : UnitTree α} (h : (e.scanRequest ms r).result = .ok tree)
    (h' : (e.scanRequest ms' r).result = .ok tree') : tree.shape = tree'.shape := by
  obtain ⟨text, hcontent, hscan⟩ := exists_scan_of_scanRequest h
  obtain ⟨text', hcontent', hscan'⟩ := exists_scan_of_scanRequest h'
  obtain rfl : text = text' := Except.ok.inj (hcontent.symm.trans hcontent')
  obtain ⟨root, hparse, hshape⟩ := shape_of_scan hscan
  obtain ⟨root', hparse', hshape'⟩ := shape_of_scan hscan'
  obtain rfl : root = root' := Except.ok.inj (hparse.symm.trans hparse')
  rw [hshape, hshape']

/-- A session in order finds trees. -/
theorem found_treesOf (h : e.Leads ms ms') (rs : List FileRequest) :
    e.Found ms rs (e.treesOf ms' rs) := by
  induction rs generalizing ms' with
  | nil => exact .nil
  | cons r rest ih =>
      rcases e.scanRequest_unscannable ms' r with ⟨err, herr, -, hscan⟩ | ⟨tree, -, hscan, -⟩
      · rw [treesOf_cons_of_error hscan]
        exact .failed herr (ih h)
      · rw [treesOf_cons_of_ok hscan]
        exact .scanned h hscan (ih (h.scanRequest r))

namespace Found

theorem map_shape (h : e.Found ms rs trees) :
    trees.map UnitTree.shape = (e.treesOf ms rs).map UnitTree.shape := by
  suffices hall : ∀ ms', trees.map UnitTree.shape = (e.treesOf ms' rs).map UnitTree.shape from
    hall ms
  induction h with
  | nil => exact fun _ => rfl
  | @failed r err rest trees herr _ ih =>
      intro ms'
      rcases e.scanRequest_unscannable ms' r with ⟨err', -, -, hscan⟩ | ⟨tree, hnone, -, -⟩
      · rw [treesOf_cons_of_error hscan, ih]
      · rw [herr] at hnone
        cases hnone
  | @scanned ms₁ r tree rest trees _ htree _ ih =>
      intro ms'
      rcases e.scanRequest_unscannable ms' r with ⟨err, herr, -, -⟩ | ⟨tree', -, hscan, -⟩
      · rw [unscannable_of_ok htree] at herr
        cases herr
      · rw [treesOf_cons_of_ok hscan, List.map_cons, List.map_cons, ih, shape_eq_of_ok htree hscan]

/-- Trees are found under the ids that a session in order gives. -/
theorem childIds_eq (h : e.Found ms rs trees) (next : Nat) :
    UnitTree.childIds next trees = UnitTree.childIds next (e.treesOf ms rs) :=
  UnitTree.childIds_eq_of_shapes h.map_shape

theorem map_key (h : e.Found ms rs trees) : trees.map (·.key) = scannedKeys e.grammar rs := by
  have hkeys : ∀ ts : List (UnitTree α),
      ts.map (·.key) = (ts.map UnitTree.shape).map (·.unit.key) := by
    intro ts
    simp only [List.map_map, Function.comp_def, UnitTree.shape_unit, UnitTree.spec]
  rw [hkeys, h.map_shape, ← hkeys, map_key_treesOf]

/-- Where visitors start every file anew, the trees are those of a session in
order. -/
theorem eq_treesOf (h : e.Found ms rs trees) {setup : Visitor σ α → σ → κ}
    (hreset : ∀ v ∈ e.visitors, v.Resets (setup v)) : trees = e.treesOf ms rs := by
  rw [treesOf_eq_filterMap hreset (.refl ms)]
  induction h with
  | nil => rfl
  | @failed r err rest trees herr _ ih =>
      rcases e.scanRequest_unscannable ms r with ⟨err', -, -, hscan⟩ | ⟨tree, hnone, -, -⟩
      · rw [List.filterMap_cons, hscan]
        exact ih
      · rw [herr] at hnone
        cases hnone
  | @scanned ms₁ r tree rest trees hleads htree _ ih =>
      have hscan := scanRequest_result_eq hreset (hleads.sameSetup hreset) r
      rw [List.filterMap_cons, hscan, htree]
      exact congrArg (tree :: ·) ih

end Found

end Engine

namespace Scanner

variable [Amount α]

/-- A session on several workers passes over the file at a position. -/
def passesOver (sc : Scanner σ α) (d : Distribution) (position : Nat) : Bool :=
  sc.cancelled || d.misses position

/-- The files that a session on several workers does, in order. -/
def kept (sc : Scanner σ α) (d : Distribution) (paths : List String) : List String :=
  filesAt (fun position => !sc.passesOver d position) 0 paths

/-- The files that a session on several workers passes over, in order. -/
def skipped (sc : Scanner σ α) (d : Distribution) (paths : List String) : List String :=
  filesAt (sc.passesOver d) 0 paths

/-! ## To collect what was found -/

/-- Where files are passed over nothing is found of them, and of the others
what a scan gives.  To collect this comes to the report and the index of the
files that are kept. -/
theorem outcome_collect_found {sc : Scanner σ α} {t : UnitTree α} (ht : sc.index.Represents t)
    {read : Reader} {ms : List σ} {misses : Nat → Bool} {findings : List (Finding α)}
    {position : Nat} {paths : List String}
    (hmissed : ∀ i, misses i = true → findings.find? (fun f => f.position = i) = none)
    (hfound : ∀ file ∈ paths.zipIdx position, misses file.2 = false →
      ∃ f ms', findings.find? (fun f => f.position = file.2) = some f ∧
        sc.engine.Leads ms ms' ∧ f.result = (sc.engine.scanPath read ms' file.1).result)
    (h : sc.Apart ((filesAt (fun i => !misses i) position paths).map (.path read)))
    (report : ScanReport) :
    let rs := (filesAt (fun i => !misses i) position paths).map (.path read)
    ∃ trees, sc.engine.Found ms rs trees ∧
      (collect findings sc position report paths).outcome =
        (.ok ⟨report.scanned ++ UnitTree.childIds sc.index.size trees,
          report.failures ++ sc.engine.failuresOf rs,
          report.cancelled || !(filesAt misses position paths).isEmpty⟩,
        sc.index.offerAll trees) := by
  induction paths generalizing sc t position report with
  | nil =>
      refine ⟨[], .nil, ?_⟩
      show (Except.ok report, sc.index) =
        (.ok ⟨report.scanned ++ [], report.failures ++ [], report.cancelled || false⟩, sc.index)
      rw [List.append_nil, List.append_nil, Bool.or_false]
  | cons path rest ih =>
      rw [List.zipIdx_cons] at hfound
      have hrest := fun file hfile => hfound file (List.mem_cons_of_mem _ hfile)
      rw [filesAt_cons] at h
      rw [filesAt_cons, filesAt_cons]
      cases hmiss : misses position with
      | true =>
          simp only [hmiss, Bool.not_true, Bool.false_eq_true, if_false, if_true, List.nil_append] at h ⊢
          obtain ⟨trees, htrees, houtcome⟩ := ih ht hrest h { report with cancelled := true }
          refine ⟨trees, htrees, ?_⟩
          rw [collect, hmissed position hmiss]
          refine houtcome.trans ?_
          simp only [List.singleton_append, List.isEmpty_cons, Bool.not_false, Bool.or_true,
            Bool.true_or]
      | false =>
          simp only [hmiss, Bool.not_false, if_true, Bool.false_eq_true, if_false, List.nil_append,
            List.singleton_append, List.map_cons] at h ⊢
          obtain ⟨f, ms', hfind, hleads, hresult⟩ := hfound (path, position) List.mem_cons_self hmiss
          have hscoped : ∀ err, f.result = .error err → err.isFileScoped :=
            fun err herr => Engine.isFileScoped_of_scanPath read path (hresult.symm.trans herr)
          rw [outcome_collect hfind hscoped, hresult]
          rcases sc.engine.scanRequest_unscannable ms' (.path read path) with
            ⟨err, herr, -, hscan⟩ | ⟨tree, hnone, hscan, hkey⟩
          · have hpath : sc.engine.scanPath read ms' path = ⟨.error err, ms', []⟩ := hscan
            obtain ⟨trees, htrees, houtcome⟩ :=
              ih ht hrest (h.skip herr) (report.addFailure ⟨path, err⟩)
            refine ⟨trees, .failed herr htrees, ?_⟩
            rw [hpath, Engine.failuresOf_cons, herr]
            refine houtcome.trans ?_
            simp only [ScanReport.addFailure, List.append_assoc]
            rfl
          · have hpath : (sc.engine.scanPath read ms' path).result = .ok tree := hscan
            obtain ⟨index, t', hinsert, ht', hsize, hapart⟩ := h.take ht hnone hkey
            let next : Scanner σ α := { sc with index := index }
            have hnext : next.index.Represents t' := ht'
            obtain ⟨trees, htrees, houtcome⟩ :=
              ih hnext hrest (hapart sc.memories) (report.addScanned sc.index.size)
            refine ⟨tree :: trees, .scanned hleads hscan htrees, ?_⟩
            simp only [hpath, hinsert]
            rw [Engine.failuresOf_cons, hnone, UnitTree.childIds, offerAll_cons_of_insert hinsert,
              ← hsize]
            refine houtcome.trans ?_
            simp only [ScanReport.addScanned, List.append_assoc]
            rfl

/-- A session on several workers comes to what was found of the files that
are kept. -/
theorem outcome_scanFilesParallel_found {sc : Scanner σ α} {t : UnitTree α}
    (ht : sc.index.Represents t) {read : Reader} {d : Distribution} {paths : List String}
    (hd : d.Covers paths.length) (h : sc.Apart ((sc.kept d paths).map (.path read))) :
    let rs := (sc.kept d paths).map (.path read)
    ∃ trees, sc.engine.Found sc.memories rs trees ∧
      (sc.scanFilesParallel read d paths).outcome =
        (.ok ⟨UnitTree.childIds sc.index.size trees, sc.engine.failuresOf rs,
          !(sc.skipped d paths).isEmpty⟩, sc.index.offerAll trees) := by
  have hscan : ∀ ms path, sc.engine.Leads sc.memories ms →
      sc.engine.Leads sc.memories (sc.engine.scanPath read ms path).memories :=
    fun ms path hms => hms.scanRequest (.path read path)
  let findings := d.workers.flatMap
    (work sc.engine read paths (sc.passesOver d) (sc.engine.forkMemories sc.memories))
  have hmissed : ∀ i, sc.passesOver d i = true → findings.find? (fun f => f.position = i) = none :=
    fun i hi => find?_findings_eq_none hi
  refine outcome_collect_found ht hmissed (fun file hfile hdue => ?_) h .empty
  have hpath := List.mem_zipIdx_iff_getElem?.mp hfile
  exact exists_finding (P := sc.engine.Leads sc.memories) hscan Engine.Leads.refl.fork hd hpath hdue

/-- Whatever a scanner has been through, however files are shared out over
workers and whenever the session turns out cancelled to each of them, every
path is scanned, fails or is passed over, and just one of these; the files
scanned and the failures are in the order of the paths.  The report says that
the session was cancelled exactly when files are passed over, and is
otherwise that of a session in order over the files that are kept; so is the
index, where visitors start every file anew.  No two files that are kept have
the same key, and none has one that is taken. -/
theorem scanFilesParallel_skips {config : ScannerConfig σ α} {grammar : Grammar}
    {fresh : Scanner σ α} {events : List (Event α)} (hnew : new config grammar = .ok (fresh, events))
    (history : List Request) (read : Reader) {d : Distribution} {paths : List String}
    (hd : d.Covers paths.length)
    (hapart : (fresh.after history).Apart
      (((fresh.after history).kept d paths).map (.path read))) :
    let sc := fresh.after history
    let session := sc.scanFilesParallel read d paths
    let inOrder := sc.resume.scanFiles read none (sc.kept d paths)
    ∃ report scanned, session.result = .ok report ∧
      report.scanned.map (fun id => (session.scanner.index.toTree id).map (·.key)) =
        scanned.map some ∧
      (scanned ++ report.failures.map (·.file) ++ sc.skipped d paths).Perm paths ∧
      scanned.Sublist paths ∧ (report.failures.map (·.file)).Sublist paths ∧
      (report.cancelled = true ↔ sc.skipped d paths ≠ []) ∧
      inOrder.result = .ok { report with cancelled := false } ∧
      ∀ setup : Visitor σ α → σ → κ, (∀ v ∈ config.visitors, v.Resets (setup v)) →
        session.scanner.index = inOrder.scanner.index := by
  intro sc session inOrder
  obtain ⟨t, ht⟩ := represents_after hnew history
  let rs := (sc.kept d paths).map (FileRequest.path read)
  obtain ⟨trees, hfound, houtcome⟩ := outcome_scanFilesParallel_found ht hd hapart
  obtain ⟨hresult, hindex⟩ := Prod.mk.inj houtcome
  have hresumed : sc.resume.Apart rs := ⟨hapart.nodup, hapart.free⟩
  have hresumedIndex : sc.resume.index.Represents t := ht
  obtain ⟨hinOrder, hindexInOrder⟩ :=
    Prod.mk.inj (outcome_scanFrom_apart hresumedIndex rfl hresumed 0 .empty)
  have hkept : rs.map key = sc.kept d paths := by
    rw [List.map_map]
    exact List.map_id _
  have hkeptSublist : (sc.kept d paths).Sublist paths := filesAt_sublist _ 0 paths
  refine ⟨_, scannedKeys sc.engine.grammar rs, hresult, ?_, ?_, ?_, ?_, ?_, ?_, ?_⟩
  · have htaken := ht.taken (hfound.map_key ▸ hapart.nodup) (hfound.map_key ▸ hapart.free)
    have hkeys := congrArg (List.map (Option.map (·.key))) htaken
    rw [List.map_map, List.map_map, ← hindex] at hkeys
    rw [← hfound.map_key, List.map_map]
    exact hkeys
  · have hperm := sc.engine.scannedKeys_append_failuresOf rs
    rw [hkept] at hperm
    exact (hperm.append_right _).trans (filesAt_perm (sc.passesOver d) 0 paths)
  · have hsublist : (scannedKeys sc.engine.grammar rs).Sublist (rs.map key) :=
      List.filter_sublist.map key
    exact (hkept ▸ hsublist).trans hkeptSublist
  · have hsublist : ((sc.engine.failuresOf rs).map (·.file)).Sublist (rs.map key) := by
      rw [sc.engine.map_file_failuresOf]
      exact List.filter_sublist.map key
    exact (hkept ▸ hsublist).trans hkeptSublist
  · show (!(sc.skipped d paths).isEmpty) = true ↔ _
    rw [Bool.not_eq_true', List.isEmpty_eq_false_iff]
  · rw [hfound.childIds_eq]
    exact hinOrder
  · intro setup hreset
    have hvisitors : ∀ v ∈ sc.engine.visitors, v.Resets (setup v) := by
      obtain ⟨registry, -, hfresh⟩ := new_eq_ok hnew
      have hengine : sc.engine = fresh.engine := (steps_after fresh history).engine_eq
      rw [hengine, hfresh]
      exact hreset
    have hindex' : session.scanner.index = sc.index.offerAll trees := hindex
    rw [hindex', hfound.eq_treesOf hvisitors]
    exact hindexInOrder.symm

/-- Of four files two are passed over, one by each worker; of the others one
is missing. -/
theorem scanFilesParallel_skips_twoWorkers :
    ∃ fresh events, new withHeader headed = .ok (fresh, events) ∧
      let sc := fresh.after [.file (.text "z" "x")]
      let read : Reader := fun path => if path = "c" then .error .notFound else .ok "x"
      let d : Distribution := ⟨[[2, 1], [3, 0]], fun position => position = 1 || position = 3⟩
      let paths := ["a", "b", "c", "d"]
      let session := sc.scanFilesParallel read d paths
      d.Covers paths.length ∧ sc.Apart ((sc.kept d paths).map (.path read)) ∧
      sc.skipped d paths = ["b", "d"] ∧
      (∃ report, session.result = .ok report ∧ report.cancelled = true ∧
        (sc.resume.scanFiles read none ["a", "c"]).result = .ok { report with cancelled := false }) ∧
      session.scanner.index = (sc.resume.scanFiles read none ["a", "c"]).scanner.index := by
  have hnew : new withHeader headed = .ok (_, _) := rfl
  refine ⟨_, _, hnew, ?_⟩
  intro sc read d paths session
  have hd : d.Covers paths.length := by
    show [2, 1, 3, 0].Perm (List.range 4)
    decide
  have hkept : sc.kept d paths = ["a", "c"] := by decide +kernel
  have hskipped : sc.skipped d paths = ["b", "d"] := by decide +kernel
  have hapart : sc.Apart ((sc.kept d paths).map (.path read)) :=
    ⟨by decide +kernel, by decide +kernel⟩
  obtain ⟨report, scanned, hresult, -, -, -, -, hcancelled, hinOrder, hindex⟩ :=
    scanFilesParallel_skips hnew [.file (.text "z" "x")] read hd hapart
  rw [hkept] at hinOrder hindex
  refine ⟨hd, hapart, hskipped, ⟨report, hresult, hcancelled.mpr ?_, hinOrder⟩, ?_⟩
  · rw [hskipped]
    exact List.cons_ne_nil "b" ["d"]
  · exact hindex (fun _ _ => ()) fun v hv => (builtIn_withHeader v hv).resets

end Scanner
end SourceMetrics
