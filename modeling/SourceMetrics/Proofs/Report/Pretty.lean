/-
# The report for readers shows every unit once

The report goes through the files of the table of files, has a tree made of
each and prints the tree by recursion.  What it prints is compared here with
the index itself, where the units stand in one row (`Represents`):

    project   file   class   method   function   file   …
              └──────── one block ─────────┘    └─ next

* The units of a stretch are the file and its descendants, in this order
  (`descendants_eq_numberList`), and the stretches of all files make up the
  index behind the project (`flatMap_descendants_project`).
* The rows of a block go with the descendants of its file one by one.  The
  depth of a row is the level on which its unit lies (`LiesBelow`), which the
  recursion counts downwards and the index tells by the parents
  (`forall₂_showsUnit_list`).

What a line has to look like is said here in plain text (`unitText`,
`fileText`), which appears in the line with or without colours (`Appears`), and
the integers in it are the rounded values of the unit (`Decimal.Shows`).
-/
import Mathlib
import SourceMetrics.Proofs.Decimal.Rounding
import SourceMetrics.Proofs.Report.Paint
import SourceMetrics.Proofs.Scan.Hierarchy
import SourceMetrics.Report.Pretty

namespace SourceMetrics

/-! ## The stretch of a unit -/

namespace UnitIndex

open UnitTree

variable {α : Type} {index : UnitIndex α} {t : UnitTree α}

theorem Holds.map_get? {next : Nat} {us : List (SourceUnit α)} (h : index.Holds next us) :
    (List.range' next us.length).map index.get? = us.map some := by
  induction us generalizing next with
  | nil => rfl
  | cons u us ih =>
      rw [List.length_cons, List.range'_succ, List.map_cons, List.map_cons, h.head, ih h.tail]

/-- The descendants of a unit are what is laid out behind it. -/
theorem descendants_eq_numberList {parent : Option Nat} {next : Nat} {t : UnitTree α}
    (h : index.Holds next (t.number parent next)) :
    index.descendants next = numberList next (next + 1) t.children := by
  refine List.map_injective_iff.mpr (fun _ _ => Option.some.inj) ?_
  rw [descendants_of_holds h, ← h.root.2.map_get?, length_numberList, unitCount_eq,
    Nat.add_sub_cancel_left]

mutual
/-- The units laid out for a tree are those of the tree, each before the units
below it. -/
theorem map_toTree_number (parent : Option Nat) (next : Nat) :
    ∀ t : UnitTree α, index.Holds next (t.number parent next) →
      (t.number parent next).map (fun u => index.toTree u.id) = t.preorder.map some
  | ⟨kind, key, startLine, own, measures, lines, inner⟩, h => by
      have htree := toTree_of_holds parent next _ h
      have hbelow := map_toTree_numberList next (next + 1) inner h.root.2
      rw [number_eq, preorder, List.map_cons, List.map_cons, hbelow]
      exact congrArg (· :: _) htree
theorem map_toTree_numberList (parent next : Nat) :
    ∀ ts : List (UnitTree α), index.Holds next (numberList parent next ts) →
      (numberList parent next ts).map (fun u => index.toTree u.id) = (preorderList ts).map some
  | [], _ => rfl
  | t :: ts, h => by
      obtain ⟨hfirst, hrest⟩ := h.cons
      rw [numberList, preorderList, List.map_append, List.map_append,
        map_toTree_number (some parent) next t hfirst, map_toTree_numberList parent _ ts hrest]
end

/-- The roots of trees side by side, each with its descendants, are all that
is laid out for the trees. -/
theorem flatMap_descendants {parent next : Nat} {ts : List (UnitTree α)}
    (h : index.Holds next (numberList parent next ts)) :
    (index.unitsAt (childIds next ts)).flatMap (fun u => u :: index.descendants u.id) =
      numberList parent next ts := by
  induction ts generalizing next with
  | nil => rfl
  | cons t ts ih =>
      obtain ⟨hfirst, hrest⟩ := h.cons
      have hmore := ih hrest
      rw [unitsAt] at hmore
      rw [childIds, unitsAt, List.filterMap_cons, hfirst.root.1, List.flatMap_cons, hmore,
        numberList, number_eq, ← descendants_eq_numberList hfirst]
      rfl

/-- The files with their descendants are all units but the project, in the
order of the index. -/
theorem Represents.flatMap_descendants_project (h : index.Represents t) :
    (index.children projectId).flatMap (fun u => u :: index.descendants u.id) =
      index.units.toList.tail := by
  obtain ⟨hproject, hbelow⟩ := h.holds.root
  rw [children_eq hproject, h.units, number_eq, List.tail_cons]
  exact flatMap_descendants hbelow

/-! ## Levels -/

/-- A unit lies some levels below another, on the first one if that is its
parent. -/
inductive LiesBelow (index : UnitIndex α) (top : Nat) : Nat → SourceUnit α → Prop
  | child {u : SourceUnit α} : u.parent = some top → LiesBelow index top 1 u
  | step {levels : Nat} {w u : SourceUnit α} : LiesBelow index top levels w →
      index.get? w.id = some w → u.parent = some w.id → LiesBelow index top (levels + 1) u

namespace Represents

/-- A parent stands before its children. -/
theorem lt_of_parent (h : index.Represents t) {u : SourceUnit α} (hu : u ∈ index.units) {p : Nat}
    (hp : u.parent = some p) : p < u.id := by
  rcases parent_of_mem_number none projectId t u (h.mem_units.mp hu) with rfl | ⟨w, -, hw, -, hlt⟩
  · cases hp
  · rwa [Option.some.inj (hp.symm.trans hw)]

theorem lt_of_liesBelow (h : index.Represents t) {top levels : Nat} {u : SourceUnit α}
    (hbelow : index.LiesBelow top levels u) (hu : u ∈ index.units) : top < u.id := by
  induction hbelow with
  | child hp => exact h.lt_of_parent hu hp
  | @step levels w u _ hw hp ih =>
      exact Nat.lt_trans (ih (mem_of_get? hw)) (h.lt_of_parent hu hp)

/-- A unit lies on one level alone. -/
theorem liesBelow_unique (h : index.Represents t) {top levels levels' : Nat} {u : SourceUnit α}
    (hbelow : index.LiesBelow top levels u) (hbelow' : index.LiesBelow top levels' u) :
    levels = levels' := by
  induction hbelow generalizing levels' with
  | child hp =>
      cases hbelow' with
      | child _ => rfl
      | @step levels w _ hw hget hp' =>
          have hlt := h.lt_of_liesBelow hw (mem_of_get? hget)
          rw [Option.some.inj (hp.symm.trans hp')] at hlt
          exact absurd hlt (Nat.lt_irrefl _)
  | @step levels w u hw hget hp ih =>
      cases hbelow' with
      | child hp' =>
          have hlt := h.lt_of_liesBelow hw (mem_of_get? hget)
          rw [Option.some.inj (hp.symm.trans hp')] at hlt
          exact absurd hlt (Nat.lt_irrefl _)
      | @step levels' w' _ hw' hget' hp' =>
          have hid : w.id = w'.id := Option.some.inj (hp.symm.trans hp')
          rw [← hid, hget] at hget'
          obtain rfl := Option.some.inj hget'
          rw [ih hw']

end Represents
end UnitIndex

/-! ## Rows and blocks -/

namespace Report

open UnitIndex UnitTree

def blanks (n : Nat) : String := String.ofList (List.replicate n ' ')

/-- The text of the line of a unit that lies some levels below its file: two
blanks more for each level, its key, filled up to 32 characters, its complexity,
in at least three places, and its statements. -/
def unitText (levels : Nat) (key : String) (complexity statements : Int) : String :=
  blanks (2 * levels + 4) ++ key ++ blanks (32 - key.length) ++ " complexity " ++
    blanks (3 - (toString complexity).length) ++ toString complexity ++ "  " ++
    toString statements ++ " statements"

/-- The text of the line with the main metrics of a file. -/
def fileText (counts : Metric → Int) : String :=
  "    " ++ "  ".intercalate
    [s!"{counts Metric.lines} lines", s!"{counts Metric.linesOfCode} loc",
      s!"{counts Metric.commentLines} comments", s!"{counts Metric.functions} functions",
      s!"{counts Metric.statements} statements", s!"{counts Metric.complexity} complexity"]

/-- A line is that of a unit below a file: it is indented by the level on which
the unit lies, and shows its key and its totals of complexity and of
statements. -/
structure ShowsUnit (colours : Bool) (index : UnitIndex Float) (file : Nat) (u : SourceUnit Float)
    (line : String) : Prop where
  lies : ∃ levels, index.LiesBelow file levels u
  row : ∀ levels, index.LiesBelow file levels u → ∃ complexity statements : Int,
    Decimal.Shows (u.measures.get Metric.complexity) complexity ∧
    Decimal.Shows (u.measures.get Metric.statements) statements ∧
    Appears colours (unitText levels u.key complexity statements) line

/-- The lines at the start of a block are those of a file: its key and its main
metrics. -/
def ShowsHead (colours : Bool) (file : SourceUnit Float) (keyLine metricLine : String) : Prop :=
  Appears colours ("  " ++ file.key) keyLine ∧
  ∃ counts : Metric → Int, (∀ m, Decimal.Shows (file.measures.get m) (counts m)) ∧
    Appears colours (fileText counts) metricLine

/-- A block is that of a file: its key and its main metrics, a line for each
unit below it, and an empty line.  The units come as they do in the tree of
the file, each before those below it. -/
def ShowsFile (colours : Bool) (index : UnitIndex Float) (file : SourceUnit Float)
    (block : List String) : Prop :=
  ∃ tree keyLine metricLine lines, index.toTree file.id = some tree ∧
    block = [keyLine, metricLine] ++ lines ++ [""] ∧
    ShowsHead colours file keyLine metricLine ∧
    (index.descendants file.id).map (fun u => index.toTree u.id) =
      (preorderList tree.children).map some ∧
    List.Forall₂ (ShowsUnit colours index file.id) (index.descendants file.id) lines

section
variable {index : UnitIndex Float} {t : UnitTree Float} (colours : Bool)

theorem blanks_append (m n : Nat) : blanks m ++ blanks n = blanks (m + n) := by
  rw [blanks, blanks, ← String.ofList_append, List.replicate_append_replicate, blanks]

/-- The text of a row appears in its line, when the depth is one more than the
level. -/
theorem appears_unitText (levels : Nat) (u : SourceUnit Float) :
    Appears colours
      (unitText levels u.key (u.measures.count Metric.complexity)
        (u.measures.count Metric.statements))
      (UnitRow.line colours ⟨levels + 1, u.key, u.measures.count Metric.complexity,
        u.measures.count Metric.statements⟩) := by
  have hindent : "  " ++ blanks (2 * (levels + 1)) = blanks (2 * levels + 4) := by
    have htwo : "  " = blanks 2 := rfl
    rw [htwo, blanks_append]
    congr 1
    omega
  have hwords : " complexity " = " " ++ "complexity " := rfl
  have htext : ∀ complexity statements : Int, unitText levels u.key complexity statements =
      "  " ++ blanks (2 * (levels + 1)) ++ padRight 32 u.key ++ " " ++
        ("complexity " ++ padLeft 3 (toString complexity)) ++ "  " ++
        s!"{statements} statements" := by
    intro complexity statements
    rw [hindent, unitText, hwords]
    simp only [padRight, padLeft, String.append_assoc]
    rfl
  rw [htext]
  refine .append ?_ (.painted colours _ _)
  refine .append ?_ (.refl colours "  ")
  exact .append (.refl colours _) (.painted colours _ _)

/-- The text of the main metrics appears in their line. -/
theorem appears_fileText (t : UnitTree Float) :
    Appears colours (fileText t.count) ("    " ++ painted colours .dimmed (metricRow t)) := by
  have htext : fileText t.count = "    " ++ metricRow t := by
    simp only [fileText, metricRow, fileColumns, List.map_cons, List.map_nil, String.append_assoc]
    rfl
  rw [htext]
  exact (Appears.refl colours _).append (Appears.painted colours .dimmed _)

theorem unitRows_eq (depth : Nat) (t : UnitTree Float) :
    unitRows depth t =
      ⟨depth, t.key, t.measures.count Metric.complexity, t.measures.count Metric.statements⟩ ::
        unitRowsList (depth + 1) t.children := by
  cases t
  rfl

/-- A unit on a level has the line of a row for this level. -/
theorem showsUnit_of_liesBelow (h : index.Represents t) {file levels : Nat} {u : SourceUnit Float}
    (hlies : index.LiesBelow file levels u) :
    ShowsUnit colours index file u
      (UnitRow.line colours ⟨levels + 1, u.key, u.measures.count Metric.complexity,
        u.measures.count Metric.statements⟩) where
  lies := ⟨levels, hlies⟩
  row levels' hlies' := by
    obtain rfl := h.liesBelow_unique hlies hlies'
    exact ⟨_, _, u.measures.shows_count _, u.measures.shows_count _,
      appears_unitText colours levels u⟩

variable {colours}

mutual
/-- The rows of a tree that is laid out go with its units one by one, when
they start at the level of its root. -/
theorem forall₂_showsUnit (h : index.Represents t) {file levels parent next : Nat} :
    ∀ below : UnitTree Float, index.Holds next (below.number (some parent) next) →
      (∀ u : SourceUnit Float, u.parent = some parent → index.LiesBelow file levels u) →
      List.Forall₂ (ShowsUnit colours index file) (below.number (some parent) next)
        ((unitRows (levels + 1) below).map (UnitRow.line colours))
  | ⟨kind, key, startLine, own, measures, lines, inner⟩, hholds, hlevel => by
      let below : UnitTree Float := ⟨kind, key, startLine, own, measures, lines, inner⟩
      obtain ⟨hroot, hbelow⟩ := hholds.root
      have hlies := hlevel (below.rootUnit (some parent) next) rfl
      rw [number_eq, unitRows_eq, List.map_cons]
      refine .cons (showsUnit_of_liesBelow colours h hlies) ?_
      exact forall₂_showsUnit_list h inner hbelow fun u hu => .step hlies hroot hu
theorem forall₂_showsUnit_list (h : index.Represents t) {file levels parent next : Nat} :
    ∀ ts : List (UnitTree Float), index.Holds next (numberList parent next ts) →
      (∀ u : SourceUnit Float, u.parent = some parent → index.LiesBelow file levels u) →
      List.Forall₂ (ShowsUnit colours index file) (numberList parent next ts)
        ((unitRowsList (levels + 1) ts).map (UnitRow.line colours))
  | [], _, _ => .nil
  | t :: ts, hholds, hlevel => by
      obtain ⟨hfirst, hrest⟩ := hholds.cons
      rw [numberList, unitRowsList, List.map_append]
      exact List.rel_append (forall₂_showsUnit h t hfirst hlevel)
        (forall₂_showsUnit_list h ts hrest hlevel)
end

variable (colours) in
/-- Where files are laid out side by side, their trees are read back, and the
block of each tree is one of its file. -/
theorem forall₂_showsFile (h : index.Represents t) {parent next : Nat} :
    ∀ ts : List (UnitTree Float), index.Holds next (numberList parent next ts) →
      (index.unitsAt (childIds next ts)).map (fun u => index.toTree u.id) = ts.map some ∧
      List.Forall₂ (ShowsFile colours index) (index.unitsAt (childIds next ts))
        (ts.map (fileBlock colours))
  | [], _ => ⟨rfl, .nil⟩
  | tree :: ts, hholds => by
      obtain ⟨hfirst, hrest⟩ := hholds.cons
      obtain ⟨htrees, hblocks⟩ := forall₂_showsFile h ts hrest
      have htree := toTree_of_holds (some parent) next tree hfirst
      have hunits : index.unitsAt (childIds next (tree :: ts)) =
          tree.rootUnit (some parent) next :: index.unitsAt (childIds (next + tree.unitCount) ts) := by
        rw [childIds, unitsAt, List.filterMap_cons, hfirst.root.1]
        rfl
      have hid : (tree.rootUnit (some parent) next).id = next := rfl
      rw [hunits]
      refine ⟨?_, .cons ?_ hblocks⟩
      · rw [List.map_cons, List.map_cons, hid, htree, htrees]
      · have hbelow := hfirst.root.2
        refine ⟨tree, _, _, (unitRowsList 2 tree.children).map (UnitRow.line colours), htree, rfl,
          ⟨(Appears.refl colours "  ").append (.painted colours .blue _), tree.count,
            tree.measures.shows_count, appears_fileText colours tree⟩, ?_⟩
        rw [hid, descendants_eq_numberList hfirst]
        exact ⟨map_toTree_numberList next (next + 1) tree.children hbelow,
          forall₂_showsUnit_list h tree.children hbelow fun u hu => .child hu⟩

end

/-- What is related element by element has a partner for each element. -/
theorem exists_of_forall₂ {β γ : Type} {R : β → γ → Prop} {xs : List β} {ys : List γ}
    (h : List.Forall₂ R xs ys) {x : β} (hx : x ∈ xs) : ∃ y ∈ ys, R x y := by
  obtain ⟨i, hi, rfl⟩ := List.mem_iff_getElem.mp hx
  obtain ⟨hlength, hrelated⟩ := List.forall₂_iff_get.mp h
  have hi' : i < ys.length := hlength ▸ hi
  exact ⟨_, List.getElem_mem hi', hrelated i hi hi'⟩

/-- Where the table of files lists the units right below the project, it does
so in their order. -/
theorem query_file_eq_children {index : UnitIndex Float} {t : UnitTree Float}
    (h : index.Represents t)
    (hfiles : ∀ u, u ∈ index.query .file ↔ u ∈ index.children projectId) :
    index.query .file = index.children projectId := by
  rw [h.query_eq, h.children_project_eq]
  refine List.filter_congr fun u hu => decide_eq_decide.mpr ?_
  have hmem := hfiles u
  rw [h.mem_query, h.mem_children_project] at hmem
  have hu := Array.mem_toList_iff.mp hu
  exact ⟨fun hkind => (hmem.mp ⟨hu, hkind⟩).2, fun hparent => (hmem.mpr ⟨hu, hparent⟩).2⟩

/-- The report for readers, for an index whose files are the units right below
the project.  It has one block for each file, in the order in which the trees
came in.  A block has one line for each unit below its file, each unit before
those below it; the line shows the key of the unit and its totals, and is
indented by two blanks more for each level.  The files and the units below
them, as the blocks show them, are all units of the index behind the project,
each once. -/
theorem prettyLines_enumerates (key : String) (registry : MetricRegistry Float)
    (offers : List (UnitTree Float)) (colours : Bool) (subject : Subject) (report : ScanReport)
    (hfiles : ∀ u, u ∈ ((new key registry).offerAll offers).query .file ↔
      u ∈ ((new key registry).offerAll offers).children projectId) :
    let index := (new key registry).offerAll offers
    let files := index.children projectId
    ∃ blocks : List (List String),
      prettyLines colours subject index report =
        heading colours subject ++ blocks.flatten ++ failureBlock colours report.failures ++
          [summary colours index report, ""] ∧
      prettyText colours subject index report =
        String.join ((prettyLines colours subject index report).map (· ++ "\n")) ∧
      List.Forall₂ (ShowsFile colours index) files blocks ∧
      files.map (fun u => index.toTree u.id) = ((new key registry).accepted offers).map some ∧
      files.flatMap (fun u => u :: index.descendants u.id) = index.units.toList.tail ∧
      (files.map fun u => 1 + (index.descendants u.id).length).sum = index.size - 1 := by
  intro index files
  obtain ⟨t, ht, hchildren⟩ := represents_offerAll key registry offers
  obtain ⟨hproject, hbelow⟩ := ht.holds.root
  have hlist : files = index.unitsAt (childIds (projectId + 1) t.children) := children_eq hproject
  obtain ⟨htrees, hblocks⟩ := forall₂_showsFile colours ht t.children hbelow
  have hall := ht.flatMap_descendants_project
  refine ⟨t.children.map (fileBlock colours), ?_, rfl, hlist ▸ hblocks, ?_, hall, ?_⟩
  · have hquery : index.query .file = index.unitsAt (childIds (projectId + 1) t.children) :=
      (query_file_eq_children ht hfiles).trans hlist
    have hread : fileTrees index = t.children := by
      have hsome := congrArg (List.filterMap id) htrees
      rw [List.filterMap_map, List.filterMap_map] at hsome
      rw [fileTrees, hquery]
      exact hsome.trans List.filterMap_some
    rw [prettyLines, hread, List.flatMap_def]
  · rw [hlist, htrees, hchildren]
  · have hlength := congrArg List.length hall
    rw [List.length_flatMap, List.length_tail, Array.length_toList] at hlength
    simp only [List.length_cons, Nat.add_comm _ 1] at hlength
    exact hlength

/-! ### A file with a method in a class -/

/-- A method with two statements. -/
def outlinedMethod : UnitTree Float :=
  ⟨.function, "m:2", 2, .empty, Measures.empty.set Metric.statements 2, [], []⟩

/-- A class that has this method. -/
def outlinedClass : UnitTree Float := ⟨.cls, "C:1", 1, .empty, .empty, [], [outlinedMethod]⟩

/-- A file with this class, and a function behind it. -/
def outlinedFile : UnitTree Float :=
  ⟨.file, "a.js", 1, .empty, .empty, [],
    [outlinedClass, ⟨.function, "f:5", 5, .empty, .empty, [], []⟩]⟩

/-- A file without units below it. -/
def bareFile : UnitTree Float := ⟨.file, "b.js", 1, .empty, .empty, [], []⟩

/-- Both files, the first of which is offered again and refused. -/
def outlinedIndex : UnitIndex Float :=
  (new "project" ⟨[]⟩).offerAll [outlinedFile, bareFile, outlinedFile]

/-- What is printed of them. -/
def outlinedText : String :=
  String.join (List.map (· ++ "\n") [
    "",
    "  astscan v0.1.0",
    "",
    "  Scanning: src",
    "",
    "  a.js",
    "    0 lines  0 loc  0 comments  0 functions  0 statements  0 complexity",
    "      C:1                              complexity   0  0 statements",
    "        m:2                              complexity   0  2 statements",
    "      f:5                              complexity   0  0 statements",
    "",
    "  b.js",
    "    0 lines  0 loc  0 comments  0 functions  0 statements  0 complexity",
    "",
    "  0 files  0 functions  0 loc  OK",
    ""])

theorem prettyLines_enumerates_outlined :
    (∀ u, u ∈ outlinedIndex.query .file ↔ u ∈ outlinedIndex.children projectId) ∧
    (outlinedIndex.children projectId).map
        (fun u => (u.key, (outlinedIndex.descendants u.id).map (·.key))) =
      [("a.js", ["C:1", "m:2", "f:5"]), ("b.js", [])] ∧
    outlinedIndex.size = 6 ∧
    ∃ blocks : List (List String),
      prettyLines false ⟨"src", none⟩ outlinedIndex .empty =
        heading false ⟨"src", none⟩ ++ blocks.flatten ++
          [summary false outlinedIndex .empty, ""] ∧
      List.Forall₂ (ShowsFile false outlinedIndex) (outlinedIndex.children projectId) blocks ∧
      ((outlinedIndex.children projectId).map
        fun u => 1 + (outlinedIndex.descendants u.id).length).sum = 5 ∧
      "        m:2                              complexity   0  2 statements" ∈ blocks.flatten ∧
      prettyText false ⟨"src", none⟩ outlinedIndex .empty = outlinedText := by
  have hfiles : ∀ u, u ∈ outlinedIndex.query .file ↔ u ∈ outlinedIndex.children projectId := by
    have heq : outlinedIndex.query .file = outlinedIndex.children projectId := rfl
    intro u
    rw [heq]
  have hsize : outlinedIndex.size = 6 := by decide +kernel
  obtain ⟨blocks, hlines, -, hblocks, -, -, hsum⟩ := prettyLines_enumerates "project" ⟨[]⟩
    [outlinedFile, bareFile, outlinedFile] false ⟨"src", none⟩ .empty hfiles
  refine ⟨hfiles, by decide +kernel, hsize, blocks, ?_, hblocks, ?_, ?_, by decide +kernel⟩
  · rw [outlinedIndex, hlines, failureBlock, ScanReport.empty, List.isEmpty_nil, if_pos rfl,
      List.append_nil]
  · exact hsum.trans (congrArg (· - 1) hsize)
  · -- The method lies two levels below the first file.
    have hfile : outlinedFile.rootUnit (some 0) 1 ∈ outlinedIndex.children projectId :=
      List.mem_of_getElem? (i := 0) rfl
    have hmethod : outlinedMethod.rootUnit (some 2) 3 ∈ outlinedIndex.descendants 1 := by
      have hsecond : (outlinedIndex.descendants 1)[1]? =
          some (outlinedMethod.rootUnit (some 2) 3) := by cbv
      exact List.mem_of_getElem? hsecond
    have hlies : outlinedIndex.LiesBelow 1 2 (outlinedMethod.rootUnit (some 2) 3) :=
      .step (w := outlinedClass.rootUnit (some 1) 2) (.child rfl) rfl rfl
    obtain ⟨block, hblock, tree, keyLine, metricLine, lines, -, hparts, -, -, hunits⟩ :=
      exists_of_forall₂ hblocks hfile
    obtain ⟨line, hline, hshows⟩ := exists_of_forall₂ hunits hmethod
    obtain ⟨complexity, statements, hcomplexity, hstatements, happears⟩ := hshows.row 2 hlies
    obtain rfl : complexity = 0 := hcomplexity.count 0 (by decide) (by decide +kernel)
    obtain rfl : statements = 2 := hstatements.count 2 (by decide) (by decide +kernel)
    have htext : unitText 2 "m:2" 0 2 =
        "        m:2                              complexity   0  2 statements" := by decide +kernel
    rw [Appears, if_neg Bool.false_ne_true] at happears
    refine List.mem_flatten.mpr ⟨block, hblock, ?_⟩
    rw [hparts, ← htext]
    exact List.mem_append_left _ (List.mem_append_right _ (happears ▸ hline))

end Report
end SourceMetrics
