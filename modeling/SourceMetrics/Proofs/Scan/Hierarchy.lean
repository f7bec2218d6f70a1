/-
# Projects, files and what lies within them

A project holds files, and a file holds classes and functions.  The first
half of this comes from the index, the second half from the extractors:

    project          made with the index, its only root
    └─ file          one for each tree that is taken in
       └─ class, function, …    as the extractors answer

* The units right below the project are files, whatever the extractors are,
  and no file that was taken in is ever lost (`Steps.files`,
  `Steps.children_isPrefix`).
* What an extractor answers is not looked at.  It may claim a node as a file
  or even as a project, and then the table of files lists more than the files
  (`file_claimed_within_file`).  Where the extractors claim classes and
  functions alone, as those for JavaScript do, the units within a file are
  such (`kind_of_scan`), and the tables list just the project and the files.
-/
import SourceMetrics.JavaScript.Scanner
import SourceMetrics.Proofs.Scan.SiblingKeys
import SourceMetrics.Proofs.Unit.ProjectTotals

namespace SourceMetrics

/-! ## Extractors that claim classes and functions -/

/-- A class or a function, which lies within a file. -/
def UnitKind.IsNested (kind : UnitKind) : Prop := kind = .cls ∨ kind = .function

theorem UnitKind.isNested_iff {kind : UnitKind} :
    kind.IsNested ↔ kind ≠ .project ∧ kind ≠ .file := by
  cases kind <;> simp [IsNested]

/-- The extractor claims classes and functions alone. -/
def UnitExtractor.ClaimsNested (x : UnitExtractor) : Prop :=
  ∀ n surroundings spec, x.extract n surroundings = some spec → spec.kind.IsNested

theorem UnitExtractor.claimsNested_rule {kind : UnitKind} (h : kind.IsNested) (label : String)
    (nodeTypes : List String) (name : KeyBuilder) :
    (rule label kind nodeTypes name).ClaimsNested := by
  intro n surroundings spec hspec
  simp only [rule] at hspec
  split at hspec
  · cases hspec
    exact h
  · cases hspec

theorem JavaScript.claimsNested_extractors (options : Options) :
    ∀ x ∈ extractors options, x.ClaimsNested := by
  have hfunction : functionRule.ClaimsNested :=
    UnitExtractor.claimsNested_rule (.inr rfl) _ _ _
  have hclass : classRule.ClaimsNested :=
    UnitExtractor.claimsNested_rule (.inl rfl) _ _ _
  intro x hx
  rw [extractors] at hx
  split at hx
  · rcases List.mem_cons.mp hx with rfl | hx
    · exact hclass
    · obtain rfl := List.mem_singleton.mp hx
      exact hfunction
  · obtain rfl := List.mem_singleton.mp hx
    exact hfunction

/-! ## The kinds of units within a file -/

section
variable {P : UnitKind → Prop} {extractors : List UnitExtractor}
  (h : ∀ x ∈ extractors, ∀ n surroundings spec, x.extract n surroundings = some spec → P spec.kind)
include h

theorem kind_of_claimedUnit {above : List Node} {around : UnitShape} {n : Node} {unit : UnitSpec}
    (hunit : claimedUnit extractors above around n = some unit) : P unit.kind := by
  obtain ⟨spec, hclaim, rfl⟩ := Option.map_eq_some_iff.mp hunit
  obtain ⟨x, hx, hspec⟩ := List.exists_of_findSome?_eq_some hclaim
  exact h x hx n _ spec hspec

/-- Where marks are right, only units of the kinds claimed are opened. -/
theorem kind_of_right {above : List Node} {around : UnitSpec} {m : Marked}
    (hm : m.Right extractors above around) {m' : Marked} (hmem : m' ∈ m.preorder) {unit : UnitSpec}
    (hunit : m'.unit = some unit) : P unit.kind := by
  obtain ⟨above', around', hclaim⟩ := hm.exists_claim m' hmem
  rw [hclaim] at hunit
  exact kind_of_claimedUnit h hunit

variable {σ α : Type} [Amount α]

/-- The units within a file that was scanned are of the kinds that the
extractors claim. -/
theorem Engine.kind_of_scan {e : Engine σ α} (he : e.extractors = extractors) {ms : List σ}
    {key text : String} {tree : UnitTree α} (hscan : (e.scan ms key text).result = .ok tree) :
    ∀ u ∈ UnitTree.preorderList tree.children, P u.kind := by
  subst he
  intro u hu
  obtain ⟨root, -, hshape⟩ := shape_of_scan hscan
  have hcontract : UnitTree.shapeList tree.children = (e.marking key root).contract := by
    rw [UnitTree.shapeList_eq_map, ← UnitTree.children_shape, hshape]
  have hspec : u.spec ∈ (e.marking key root).preorder.filterMap Marked.unit := by
    rw [← Marked.preorderList_contract, ← hcontract, UnitTree.preorderList_shapeList]
    exact List.mem_map_of_mem hu
  obtain ⟨m, hm, hunit⟩ := List.mem_filterMap.mp hspec
  exact kind_of_right h (Node.right_mark [] ⟨fileSpec key root, []⟩ root) hm hunit

end

/-! ## Units by their kinds and parents -/

namespace UnitTree

variable {α : Type}

mutual
/-- A layout has the kinds of the tree. -/
theorem map_kind_number (parent : Option Nat) (next : Nat) :
    ∀ t : UnitTree α, (t.number parent next).map (·.kind) = t.preorder.map (·.kind)
  | ⟨_, _, _, _, _, _, children⟩ => by
      rw [number, preorder, List.map_cons, List.map_cons,
        map_kind_numberList next (next + 1) children]
theorem map_kind_numberList (parent next : Nat) :
    ∀ ts : List (UnitTree α),
      (numberList parent next ts).map (·.kind) = (preorderList ts).map (·.kind)
  | [] => rfl
  | t :: ts => by
      rw [numberList, preorderList, List.map_append, List.map_append, map_kind_number,
        map_kind_numberList]
end

/-- Of trees side by side, a unit that is no root lies within one of them. -/
theorem kind_of_mem_numberList {parent next : Nat} {ts : List (UnitTree α)} {u : SourceUnit α}
    (hu : u ∈ numberList parent next ts) (hparent : u.parent ≠ some parent) :
    ∃ t ∈ ts, ∃ w ∈ preorderList t.children, w.kind = u.kind := by
  induction ts generalizing next with
  | nil => cases hu
  | cons t ts ih =>
      rcases List.mem_append.mp hu with hu | hu
      · rw [number_eq] at hu
        rcases List.mem_cons.mp hu with rfl | hu
        · exact absurd rfl hparent
        · have hkind : u.kind ∈ (numberList next (next + 1) t.children).map (·.kind) :=
            List.mem_map_of_mem hu
          rw [map_kind_numberList] at hkind
          exact ⟨t, List.mem_cons_self, List.mem_map.mp hkind⟩
      · obtain ⟨t', ht', hw⟩ := ih hu
        exact ⟨t', List.mem_cons_of_mem t ht', hw⟩

/-- Within a tree no unit has a parent before the tree. -/
theorem parent_ne_of_mem_numberList {parent next first : Nat} (hparent : parent < next)
    (hfirst : parent < first) {ts : List (UnitTree α)} {u : SourceUnit α}
    (hu : u ∈ numberList next first ts) : u.parent ≠ some parent := by
  rcases parent_of_mem_numberList next first ts u hu with ⟨hup, -⟩ | ⟨w, hw, hup, -⟩
  · rw [hup]
    exact fun heq => absurd (Option.some.inj heq) (Nat.ne_of_gt hparent)
  · have hid : w.id ∈ (numberList next first ts).map (·.id) := List.mem_map_of_mem hw
    rw [map_id_numberList, List.mem_range'_1] at hid
    rw [hup]
    exact fun heq => absurd (Option.some.inj heq) (by omega)

end UnitTree

namespace UnitIndex

open UnitTree

variable {α : Type} {index : UnitIndex α} {t : UnitTree α}

/-- Where trees are laid out side by side, their roots are the units that name
the unit above them. -/
theorem filter_parent_numberList {parent next : Nat} (hparent : parent < next)
    {ts : List (UnitTree α)} (h : index.Holds next (numberList parent next ts)) :
    (numberList parent next ts).filter (fun u => u.parent = some parent) =
      index.unitsAt (childIds next ts) := by
  induction ts generalizing next with
  | nil => rfl
  | cons t ts ih =>
      obtain ⟨hfirst, hrest⟩ := h.cons
      have hbelow : (numberList next (next + 1) t.children).filter
          (fun u => u.parent = some parent) = [] := by
        refine List.filter_eq_nil_iff.mpr fun u hu hup => ?_
        exact parent_ne_of_mem_numberList hparent (by omega) hu (of_decide_eq_true hup)
      have hroot : (t.rootUnit (some parent) next).parent = some parent := rfl
      have hmore := ih (by omega) hrest
      rw [numberList, number_eq, List.filter_append, List.filter_cons,
        if_pos (decide_eq_true hroot), hbelow, hmore, childIds, unitsAt, unitsAt,
        List.filterMap_cons, hfirst.root.1]
      rfl

namespace Represents

/-- The project comes first, and the others have other ids. -/
theorem units_eq (h : index.Represents t) :
    ∃ others, index.units.toList = index.project :: others ∧
      ∀ u ∈ others, u.id ≠ projectId := by
  refine ⟨numberList projectId (projectId + 1) t.children, ?_, fun u hu hid => ?_⟩
  · rw [h.units, number_eq, h.project_eq]
  · have hmem : u.id ∈ (numberList projectId (projectId + 1) t.children).map (·.id) :=
      List.mem_map_of_mem hu
    rw [map_id_numberList, List.mem_range'_1] at hmem
    omega

/-- The units right below the project are those that name it. -/
theorem children_project_eq (h : index.Represents t) :
    index.children projectId =
      index.units.toList.filter (fun u => u.parent = some projectId) := by
  have hroot : (t.rootUnit none projectId).parent ≠ some projectId := fun heq => by cases heq
  obtain ⟨hproject, hbelow⟩ := h.holds.root
  rw [children_eq hproject, h.units, number_eq, List.filter_cons,
    if_neg (fun hp => hroot (of_decide_eq_true hp))]
  exact (filter_parent_numberList (Nat.lt_succ_self projectId) hbelow).symm

theorem mem_children_project (h : index.Represents t) {u : SourceUnit α} :
    u ∈ index.children projectId ↔ u ∈ index.units ∧ u.parent = some projectId := by
  rw [h.children_project_eq, List.mem_filter, Array.mem_toList_iff, decide_eq_true_iff]

theorem mem_query (h : index.Represents t) {kind : UnitKind} {u : SourceUnit α} :
    u ∈ index.query kind ↔ u ∈ index.units ∧ u.kind = kind := by
  rw [h.query_eq, List.mem_filter, Array.mem_toList_iff, decide_eq_true_iff]

/-- The tables of projects and of files list the project and the units right
below it, just when all other units are classes and functions. -/
theorem query_iff (h : index.Represents t) (hproject : index.project.kind = .project)
    (hfiles : ∀ u ∈ index.children projectId, u.kind = .file) :
    (index.query .project = [index.project] ∧ index.query .file = index.children projectId) ↔
      ∀ u ∈ index.units, u.id ≠ projectId → u.parent ≠ some projectId → u.kind.IsNested := by
  obtain ⟨others, hunits, hids⟩ := h.units_eq
  constructor
  · rintro ⟨hprojects, hlisted⟩ u hu hid hparent
    refine UnitKind.isNested_iff.mpr ⟨fun hkind => ?_, fun hkind => ?_⟩
    · have hmem := h.mem_query.mpr ⟨hu, hkind⟩
      rw [hprojects, List.mem_singleton, h.project_eq] at hmem
      exact hid (congrArg (·.id) hmem)
    · have hmem := h.mem_query.mpr ⟨hu, hkind⟩
      rw [hlisted, h.mem_children_project] at hmem
      exact hparent hmem.2
  · intro hnested
    -- Every unit is the project, right below it, or a class or a function.
    have hfile : ∀ u ∈ index.project :: others, u.kind = .file ↔ u.parent = some projectId := by
      intro u hu
      have hmem : u ∈ index.units := by rwa [← Array.mem_toList_iff, hunits]
      refine ⟨fun hkind => ?_, fun hparent => hfiles u (h.mem_children_project.mpr ⟨hmem, hparent⟩)⟩
      by_contra hparent
      rcases List.mem_cons.mp hu with rfl | hother
      · rw [hproject] at hkind
        cases hkind
      · exact (UnitKind.isNested_iff.mp (hnested u hmem (hids u hother) hparent)).2 hkind
    have hothers : ∀ u ∈ others, u.kind ≠ .project := by
      intro u hother hkind
      have hu := List.mem_cons_of_mem index.project hother
      have hmem : u ∈ index.units := by rwa [← Array.mem_toList_iff, hunits]
      by_cases hparent : u.parent = some projectId
      · rw [(hfile u hu).mpr hparent] at hkind
        cases hkind
      · exact (UnitKind.isNested_iff.mp (hnested u hmem (hids u hother) hparent)).1 hkind
    rw [h.query_eq, h.query_eq, h.children_project_eq, hunits]
    constructor
    · rw [List.filter_cons, if_pos (decide_eq_true hproject)]
      refine congrArg (index.project :: ·) (List.filter_eq_nil_iff.mpr fun u hu hkind => ?_)
      exact hothers u hu (of_decide_eq_true hkind)
    · exact List.filter_congr fun u hu => decide_eq_decide.mpr (hfile u hu)

end Represents

/-- A tree that is taken in comes last among the files. -/
theorem children_project_insert [Amount α] {index' : UnitIndex α} {tree : UnitTree α} {id : Nat}
    (h : index.Represents t) (hinsert : index.insert tree = .ok (id, index')) :
    index'.project.children = index.project.children ++ [id] := by
  obtain ⟨hid, t', ht', hchildren⟩ := h.insert hinsert
  rw [h.project_eq, ht'.project_eq, hid, unitCount_eq]
  show childIds (projectId + 1) t'.children = childIds (projectId + 1) t.children ++ _
  rw [hchildren, childIds_append]
  rfl

end UnitIndex

/-! ## After any history -/

/-- The files that an answer names. -/
def Reply.ids : Reply → List Nat
  | .id (.ok file) => [file]
  | .report (.ok r) => r.scanned
  | .id (.error _) | .report (.error _) | .done => []

theorem Reply.mem_ids_id {result : Except ScanError Nat} {file : Nat} :
    file ∈ (Reply.id result).ids ↔ result = .ok file := by
  cases result with
  | error err => simp [ids]
  | ok found => simp [ids, eq_comm]

theorem Reply.mem_ids_report {result : Except ScanError ScanReport} {file : Nat} :
    file ∈ (Reply.report result).ids ↔ ∃ r, result = .ok r ∧ file ∈ r.scanned := by
  cases result with
  | error err => simp [ids]
  | ok found => simp [ids]

namespace Scanner

open UnitIndex

variable {σ α : Type} [Amount α]

/-- The files of a scanner are trees of scans, and the project stays one. -/
theorem Steps.files {sc sc' : Scanner σ α} (h : Steps sc sc') {P : UnitTree α → Prop}
    (hscan : ∀ ms key text tree, (sc.engine.scan ms key text).result = .ok tree → P tree)
    (hsc : ∃ t, sc.index.Represents t ∧ t.kind = .project ∧ ∀ c ∈ t.children, P c) :
    ∃ t, sc'.index.Represents t ∧ t.kind = .project ∧ ∀ c ∈ t.children, P c := by
  suffices hkept : sc'.engine = sc.engine ∧
      ∃ t, sc'.index.Represents t ∧ t.kind = .project ∧ ∀ c ∈ t.children, P c from hkept.2
  refine h.preserves (P := fun sc' => sc'.engine = sc.engine ∧
    ∃ t, sc'.index.Represents t ∧ t.kind = .project ∧ ∀ c ∈ t.children, P c) ?_ ⟨rfl, hsc⟩
  rintro sc₁ sc₂ step ⟨hengine, t, ht, hkind, hfiles⟩
  cases step with
  | scanned => exact ⟨hengine, t, ht, hkind, hfiles⟩
  | @taken ms key text tree id index hleads htree hinsert =>
      obtain ⟨-, t', ht', hchildren⟩ := ht.insert hinsert
      have hkind' := (ht.root_insert ht' hinsert).1
      refine ⟨hengine, t', ht', hkind'.trans hkind, fun c hc => ?_⟩
      rw [hchildren] at hc
      rcases List.mem_append.mp hc with hc | hc
      · exact hfiles c hc
      · obtain rfl := List.mem_singleton.mp hc
        rw [hengine] at htree
        exact hscan ms key text c htree
  | cancelled => exact ⟨hengine, t, ht, hkind, hfiles⟩

/-- What is right below the project stays there, and more comes after it. -/
theorem Steps.children_isPrefix {sc sc' : Scanner σ α} (h : Steps sc sc')
    (hsc : ∃ t, sc.index.Represents t) : sc.index.project.children <+: sc'.index.project.children := by
  suffices hkept : (∃ t, sc'.index.Represents t) ∧
      sc.index.project.children <+: sc'.index.project.children from hkept.2
  refine h.preserves (P := fun sc' => (∃ t, sc'.index.Represents t) ∧
    sc.index.project.children <+: sc'.index.project.children) ?_ ⟨hsc, List.prefix_refl _⟩
  rintro sc₁ sc₂ step ⟨⟨t, ht⟩, hstarts⟩
  cases step with
  | scanned => exact ⟨⟨t, ht⟩, hstarts⟩
  | taken _ _ hinsert =>
      obtain ⟨-, t', ht', -⟩ := ht.insert hinsert
      refine ⟨⟨t', ht'⟩, hstarts.trans ?_⟩
      rw [children_project_insert ht hinsert]
      exact List.prefix_append _ _
  | cancelled => exact ⟨⟨t, ht⟩, hstarts⟩

/-! ### The files that answers name -/

/-- The files of a report are right below the project. -/
def Lists (sc : Scanner σ α) (report : ScanReport) : Prop :=
  ∀ id ∈ report.scanned, id ∈ sc.index.project.children

section
variable {sc : Scanner σ α}

/-- A file that was taken in is right below the project. -/
theorem mem_children_scanOne (hsc : ∃ t, sc.index.Represents t) {r : FileRequest} {id : Nat}
    (h : (sc.scanOne r).result = .ok id) : id ∈ (sc.scanOne r).scanner.index.project.children := by
  obtain ⟨t, ht⟩ := hsc
  rcases sc.scanOne_cases r with ⟨err, -, hone⟩ | ⟨tree, -, -, hone⟩ |
    ⟨tree, id', index, -, -, hinsert, hone⟩
  · rw [hone] at h
    cases h
  · rw [hone] at h
    cases h
  · rw [hone] at h ⊢
    obtain rfl := Except.ok.inj h
    show id' ∈ index.project.children
    rw [children_project_insert ht hinsert]
    exact List.mem_append_right _ (List.mem_singleton_self id')

omit [Amount α] in
theorem Lists.addScanned {sc' : Scanner σ α} {report : ScanReport} {id : Nat}
    (h : sc.Lists report) (hstarts : sc.index.project.children <+: sc'.index.project.children)
    (hid : id ∈ sc'.index.project.children) : sc'.Lists (report.addScanned id) := by
  intro id' hid'
  rcases List.mem_append.mp hid' with hid' | hid'
  · exact hstarts.subset (h id' hid')
  · obtain rfl := List.mem_singleton.mp hid'
    exact hid

omit [Amount α] in
theorem Lists.recordFailure {sc' : Scanner σ α} {report report' : ScanReport} {path : String}
    {err : ScanError} {event : Event α} (h : sc.Lists report)
    (hstarts : sc.index.project.children <+: sc'.index.project.children)
    (hrecord : recordFailure report path err = .ok (report', event)) : sc'.Lists report' := by
  rw [Scanner.recordFailure] at hrecord
  split at hrecord
  · cases hrecord
    exact fun id hid => hstarts.subset (h id hid)
  · cases hrecord

theorem lists_scanFrom {read : Reader} {stopAfter : Option Nat} {seen : Nat}
    {report report' : ScanReport} {paths : List String} (hsc : ∃ t, sc.index.Represents t)
    (h : sc.Lists report)
    (hresult : (scanFrom read stopAfter sc seen report paths).result = .ok report') :
    (scanFrom read stopAfter sc seen report paths).scanner.Lists report' := by
  induction paths generalizing sc seen report with
  | nil =>
      cases hresult
      exact h
  | cons path rest ih =>
      cases hcancelled : sc.cancelled with
      | true =>
          rw [scanFrom, if_pos hcancelled] at hresult ⊢
          cases hresult
          exact h
      | false =>
          have hsteps : Steps sc (sc.scanFile read path).scanner := steps_scanOne sc (.path read path)
          have hstarts := hsteps.children_isPrefix hsc
          obtain ⟨next, hnext, hindex⟩ : ∃ next : Scanner σ α,
              (if asksToStop stopAfter (seen + 1) then (sc.scanFile read path).scanner.cancel
                else (sc.scanFile read path).scanner) = next ∧
              next.index = (sc.scanFile read path).scanner.index := ⟨_, rfl, by split <;> rfl⟩
          have hgoesOn : ∃ t, next.index.Represents t := hindex ▸ hsteps.represents hsc
          rw [← hindex] at hstarts
          simp only [scanFrom, hcancelled, Bool.false_eq_true, if_false, hnext] at hresult ⊢
          cases hone : (sc.scanFile read path).result with
          | ok id =>
              have hid : id ∈ (sc.scanFile read path).scanner.index.project.children :=
                mem_children_scanOne (r := .path read path) hsc hone
              rw [← hindex] at hid
              simp only [hone] at hresult ⊢
              exact ih hgoesOn (h.addScanned hstarts hid) hresult
          | error err =>
              simp only [hone] at hresult ⊢
              cases hrecord : (Scanner.recordFailure report path err :
                  Except ScanError (ScanReport × Event α)) with
              | error err' =>
                  simp only [hrecord] at hresult
                  cases hresult
              | ok recorded =>
                  simp only [hrecord] at hresult ⊢
                  exact ih hgoesOn (h.recordFailure hstarts hrecord) hresult

/-- Of the findings, those that were taken in are right below the project. -/
theorem lists_collect {findings : List (Finding α)} {position : Nat} {report report' : ScanReport}
    {paths : List String} (hsc : ∃ t, sc.index.Represents t) (h : sc.Lists report)
    (hresult : (collect findings sc position report paths).result = .ok report') :
    (collect findings sc position report paths).scanner.Lists report' := by
  induction paths generalizing sc position report with
  | nil =>
      cases hresult
      exact h
  | cons path rest ih =>
      rw [collect] at hresult ⊢
      cases hfind : findings.find? (fun f => f.position = position) with
      | none =>
          rw [hfind] at hresult
          exact ih hsc h hresult
      | some f =>
          simp only [hfind] at hresult ⊢
          cases hf : f.result with
          | error err =>
              simp only [hf] at hresult ⊢
              cases hrecord : (Scanner.recordFailure report path err :
                  Except ScanError (ScanReport × Event α)) with
              | error err' =>
                  simp only [hrecord] at hresult
                  cases hresult
              | ok recorded =>
                  simp only [hrecord] at hresult ⊢
                  exact ih hsc (h.recordFailure (List.prefix_refl _) hrecord) hresult
          | ok tree =>
              simp only [hf] at hresult ⊢
              cases hinsert : sc.index.insert tree with
              | error err =>
                  simp only [hinsert] at hresult
                  cases hresult
              | ok taken =>
                  obtain ⟨id, index⟩ := taken
                  obtain ⟨t, ht⟩ := hsc
                  obtain ⟨-, t', ht', -⟩ := ht.insert hinsert
                  let next : Scanner σ α := { sc with index := index }
                  have hgrown : next.index.project.children = sc.index.project.children ++ [id] :=
                    children_project_insert ht hinsert
                  have hnext : next.Lists (report.addScanned id) := by
                    refine h.addScanned (hgrown ▸ List.prefix_append _ _) ?_
                    rw [hgrown]
                    exact List.mem_append_right _ (List.mem_singleton_self id)
                  simp only [hinsert] at hresult ⊢
                  exact ih ⟨t', ht'⟩ hnext hresult

/-- What an answer names is right below the project. -/
theorem mem_children_serve (hsc : ∃ t, sc.index.Represents t) {request : Request} {id : Nat}
    (hid : id ∈ (sc.serve request).1.ids) : id ∈ (sc.serve request).2.index.project.children := by
  have hempty : sc.Lists .empty := fun id hid => absurd hid List.not_mem_nil
  cases request with
  | file r => exact mem_children_scanOne hsc (Reply.mem_ids_id.mp hid)
  | files read stopAfter paths =>
      obtain ⟨report, hreport, hscanned⟩ := Reply.mem_ids_report.mp hid
      exact lists_scanFrom hsc hempty hreport id hscanned
  | filesParallel read d paths =>
      obtain ⟨report, hreport, hscanned⟩ := Reply.mem_ids_report.mp hid
      exact lists_collect hsc hempty hreport id hscanned
  | cancel => cases hid

theorem mem_children_replies (hsc : ∃ t, sc.index.Represents t) {requests : List Request}
    {reply : Reply} (hreply : reply ∈ sc.replies requests) {id : Nat} (hid : id ∈ reply.ids) :
    id ∈ (sc.after requests).index.project.children := by
  induction requests generalizing sc with
  | nil => cases hreply
  | cons request rest ih =>
      have hserved : ∃ t, (sc.serve request).2.index.Represents t :=
        (steps_serve sc request).represents hsc
      rcases List.mem_cons.mp hreply with rfl | hreply
      · exact ((steps_after _ rest).children_isPrefix hserved).subset (mem_children_serve hsc hid)
      · exact ih hserved hreply

end

/-! ### The tables of projects and files -/

/-- After any history the project is a project and the units right below it
are files, no two of the same key, and every file that an answer named is one
of them.  The tables of projects and of files list just these, the project
and the files, exactly when all other units are classes and functions; and so
it is where the extractors claim classes and functions alone. -/
theorem after_lists_files {config : ScannerConfig σ α} {grammar : Grammar} {fresh : Scanner σ α}
    {events : List (Event α)} (hnew : new config grammar = .ok (fresh, events))
    (history : List Request) :
    let index := (fresh.after history).index
    index.project.kind = .project ∧
    (∀ u ∈ index.children projectId, u.kind = .file) ∧
    ((index.children projectId).map (·.key)).Nodup ∧
    (∀ reply ∈ fresh.replies history, ∀ id ∈ reply.ids,
      id ∈ (index.children projectId).map (·.id)) ∧
    ((index.query .project = [index.project] ∧ index.query .file = index.children projectId) ↔
      ∀ u ∈ index.units, u.id ≠ projectId → u.parent ≠ some projectId → u.kind.IsNested) ∧
    ((∀ x ∈ config.extractors, x.ClaimsNested) →
      index.query .project = [index.project] ∧ index.query .file = index.children projectId) := by
  intro index
  have hfresh := represents_of_new hnew
  have hsteps := steps_after fresh history
  obtain ⟨registry, -, hengine⟩ := new_eq_ok hnew
  obtain ⟨t, ht, hkind, hfiles⟩ := hsteps.files (P := fun tree => tree.kind = .file)
    (fun _ _ _ _ hscan => (Engine.file_of_scan hscan).1)
    ⟨_, hfresh, rfl, fun c hc => absurd hc List.not_mem_nil⟩
  have hproject : index.project.kind = .project := by
    rw [ht.project_eq]
    exact hkind
  have hchildren : ∀ u ∈ index.children projectId, u.kind = .file := by
    intro u hu
    have hmem : u.kind ∈ (index.children projectId).map (·.kind) := List.mem_map_of_mem hu
    rw [ht.map_children_project (g := (·.kind)) fun _ _ _ => rfl] at hmem
    obtain ⟨c, hc, heq⟩ := List.mem_map.mp hmem
    exact heq.symm.trans (hfiles c hc)
  have hroot : index.project ∈ index.units := by
    obtain ⟨others, hunits, -⟩ := ht.units_eq
    rw [← Array.mem_toList_iff, hunits]
    exact List.mem_cons_self
  have hrootId : index.project.id = projectId := by
    rw [ht.project_eq]
    rfl
  refine ⟨hproject, hchildren, ?_, fun reply hreply id hid => ?_, ht.query_iff hproject hchildren,
    fun hclaims => (ht.query_iff hproject hchildren).mpr fun u hu hid hparent => ?_⟩
  · obtain ⟨t', ht', hkeys⟩ := hsteps.keysApart ⟨_, hfresh, UnitShape.keysApart_of_leaf _⟩
    exact hrootId ▸ ht'.nodup_map_key_children hkeys hroot
  · have hids := ht.map_id_children hroot
    rw [hrootId] at hids
    rw [hids]
    exact mem_children_replies ⟨_, hfresh⟩ hreply hid
  · have hextractors : fresh.engine.extractors = config.extractors := by rw [hengine]; rfl
    obtain ⟨t', ht', -, hnested⟩ := hsteps.files
      (P := fun tree => ∀ w ∈ UnitTree.preorderList tree.children, w.kind.IsNested)
      (fun _ _ _ _ hscan => Engine.kind_of_scan hclaims hextractors hscan)
      ⟨_, hfresh, rfl, fun c hc => absurd hc List.not_mem_nil⟩
    have hmem := ht'.mem_units.mp hu
    rw [UnitTree.number_eq] at hmem
    rcases List.mem_cons.mp hmem with rfl | hmem
    · exact absurd rfl hid
    · obtain ⟨c, hc, w, hw, heq⟩ := UnitTree.kind_of_mem_numberList hmem hparent
      exact heq ▸ hnested c hc w hw

theorem after_lists_files_namesakes :
    ∃ fresh events, new namesakes threeFunctions = .ok (fresh, events) ∧
      (∀ x ∈ namesakes.extractors, x.ClaimsNested) ∧
      let history : List Request :=
        [.file (.text "a" "x"), .files (fun _ => .ok "x") none ["b", "c"], .file (.text "a" "x")]
      let index := (fresh.after history).index
      fresh.replies history =
        [.id (.ok 1), .report (.ok ⟨[5, 9], [], false⟩),
          .id (.error (.invariant (.alreadyIndexed .file "a")))] ∧
      (index.children projectId).map (·.id) = [1, 5, 9] ∧
      index.query .project = [index.project] ∧ index.query .file = index.children projectId := by
  have hnew : new namesakes threeFunctions = .ok (_, _) := rfl
  have hclaims : ∀ x ∈ namesakes.extractors, x.ClaimsNested := by
    intro x hx n surroundings spec hspec
    obtain rfl := List.mem_singleton.mp hx
    dsimp only at hspec
    split at hspec
    · cases hspec
      exact .inr rfl
    · cases hspec
  obtain ⟨-, -, -, -, -, hlists⟩ := after_lists_files hnew
    [.file (.text "a" "x"), .files (fun _ => .ok "x") none ["b", "c"], .file (.text "a" "x")]
  exact ⟨_, _, hnew, hclaims, by decide +kernel, by decide +kernel, hlists hclaims⟩

/-- Modules are claimed as files, and workspaces as projects. -/
def misclaiming : ScannerConfig FileMemory Nat where
  projectKey := "project"
  metrics := [⟨Metric.lines, .sum⟩]
  filesMetric := none
  visitors := [Visitor.lines Metric.lines]
  extractors :=
    [.rule "modules" .file ["module"] .byKind, .rule "workspaces" .project ["workspace"] .byKind]

/-- A text that is a module and a workspace. -/
def moduleAndWorkspace : Grammar :=
  let leaf (kind : String) (line : Nat) : Node := ⟨kind, ⟨line, 1, line, 2⟩, none, none, []⟩
  .ofTable "sample"
    [("x", .ok ⟨"program", ⟨1, 1, 2, 2⟩, none, none, [leaf "module" 1, leaf "workspace" 2]⟩)] none

/-- What an extractor claims as a file or a project goes into the tables of
these, though it lies within the only file there is. -/
theorem file_claimed_within_file :
    ∃ fresh events, new misclaiming moduleAndWorkspace = .ok (fresh, events) ∧
      let index := (fresh.after [.file (.text "a" "x")]).index
      (index.children projectId).map (·.key) = ["a"] ∧
      (index.query .file).map (·.key) = ["a", "module:1"] ∧
      (index.query .project).map (·.key) = ["project", "workspace:2"] :=
  ⟨_, _, rfl, by decide +kernel⟩

end Scanner
end SourceMetrics
