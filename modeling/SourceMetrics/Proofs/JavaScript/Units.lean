/-
# Units of a JavaScript file

Which unit a node starts goes by its kind alone (`kind_of_mem_marking`): a
class, where classes have units, or else a function.

With classes this takes in more than it is meant for.  The word `class` is a
leaf of the tree, and its kind is the one of a class that is an expression:

    class_declaration*     A:1
    ├─ class*              <anonymous>:1
    ├─ identifier          A:1
    └─ class_body          A:1

So this word starts a unit of its own, right below the class, and the lines
that it is the first to stand on count there.  There are as many units too
many as there are such words (`traverse_opens_classes`).
-/
import SourceMetrics.Proofs.JavaScript.LinesOfCode
import SourceMetrics.Proofs.Scan.Places

namespace SourceMetrics

/-! ## The kind of unit that a node starts -/

/-- A rule that comes first has its way with the nodes of its kinds. -/
theorem UnitExtractor.kind_firstClaim_rule (label : String) (kind : UnitKind)
    (nodeTypes : List String) (name : KeyBuilder) (rest : List UnitExtractor) (n : Node)
    (surroundings : Surroundings) :
    (firstClaim (rule label kind nodeTypes name :: rest) n surroundings).map (·.kind) =
      if nodeTypes.contains n.kind then some kind
      else (firstClaim rest n surroundings).map (·.kind) := by
  rw [firstClaim, List.findSome?_cons, rule]
  by_cases h : nodeTypes.contains n.kind = true
  · simp only [h, if_true, Option.map_some]
  · simp only [h, Bool.false_eq_true, if_false]
    rfl

namespace JavaScript

open Engine

/-- The kind of unit that a node starts. -/
def startedKind (options : Options) (n : Node) : Option UnitKind :=
  if options.classUnits && classTypes.contains n.kind then some .cls
  else if functionTypes.contains n.kind then some .function
  else none

theorem kind_claimedUnit (options : Options) (above : List Node) (around : UnitShape) (n : Node) :
    (claimedUnit (extractors options) above around n).map (·.kind) = startedKind options n := by
  have hkind : ∀ xs : List UnitExtractor, (claimedUnit xs above around n).map (·.kind) =
      (UnitExtractor.firstClaim xs n ⟨above, around.unit.kind, around.unit.key⟩).map (·.kind) := by
    intro xs
    rw [claimedUnit, Option.map_map]
    rfl
  rw [hkind, extractors, startedKind]
  cases options.classUnits with
  | true =>
      rw [if_pos rfl, Bool.true_and, classRule, functionRule, UnitExtractor.kind_firstClaim_rule,
        UnitExtractor.kind_firstClaim_rule]
      rfl
  | false =>
      rw [if_neg Bool.false_ne_true, Bool.false_and, if_neg Bool.false_ne_true, functionRule,
        UnitExtractor.kind_firstClaim_rule]
      rfl

/-- What a node starts goes by its kind alone. -/
theorem kind_of_mem_marking {σ α : Type} {e : Engine σ α} {options : Options}
    (h : e.extractors = extractors options) {file : String} {root : Node} {x : Marked}
    (hx : x ∈ (e.marking file root).preorder) :
    x.unit.map (·.kind) = startedKind options x.node := by
  obtain ⟨above, around, hunit⟩ := (Node.right_mark [] ⟨fileSpec file root, []⟩ root).exists_claim x hx
  rw [hunit, h, kind_claimedUnit]

/-- No kind is that of a class and of a function. -/
theorem not_class_of_function {kind : String} (h : functionTypes.contains kind = true) :
    classTypes.contains kind = false := by
  have hapart : ∀ k ∈ functionTypes, classTypes.contains k = false := by decide
  exact hapart kind (List.contains_iff_mem.mp h)

theorem startedKind_eq_function_iff (options : Options) (n : Node) :
    startedKind options n = some .function ↔ functionTypes.contains n.kind = true := by
  rw [startedKind]
  constructor
  · intro h
    split at h
    · cases h
    · split at h
      next hfunction => exact hfunction
      next => cases h
  · intro h
    rw [not_class_of_function h, Bool.and_false, if_neg Bool.false_ne_true, if_pos h]

theorem startedKind_eq_cls_iff {options : Options} (hclasses : options.classUnits = true)
    (n : Node) : startedKind options n = some .cls ↔ classTypes.contains n.kind = true := by
  rw [startedKind, hclasses, Bool.true_and]
  constructor
  · intro h
    split at h
    next hclass => exact hclass
    next =>
      split at h
      · cases h
      · cases h
  · intro h
    rw [if_pos h]

/-! ## Classes -/

/-- A class: a node with nodes below, of a kind that starts a unit for
classes. -/
def isClass (n : Node) : Bool := n.token.isNone && classTypes.contains n.kind

/-- A word that has the kind of a class. -/
def isClassWord (n : Node) : Bool := n.token.isSome && classTypes.contains n.kind

/-- What has the kind of a class is a class or a word. -/
theorem countP_classTypes (ns : List Node) :
    ns.countP (fun n => classTypes.contains n.kind) =
      (ns.filter isClass).length + (ns.filter isClassWord).length := by
  rw [List.countP_eq_countP_filter_add ns _ fun n => n.token.isNone, List.countP_filter,
    List.countP_filter, ← List.countP_eq_length_filter, ← List.countP_eq_length_filter]
  congr 1
  · refine List.countP_congr fun n _ => ?_
    rw [isClass, Bool.and_comm]
  · refine List.countP_congr fun n _ => ?_
    rw [isClassWord, Bool.and_comm, Option.not_isNone]

section
variable {α : Type} [Amount α] {options : Options} {extraMetrics : List (MetricDefinition α)}
  {extraVisitors : List (Visitor FileMemory α)} {grammar : Grammar} {e : Engine FileMemory α}

/-- With units for classes, the nodes that start a unit for a class are those
of two kinds, be they classes or words.  So there are as many such units as
there are classes and words of these kinds together, and as many as classes
just where no word has such a kind.  This holds for every tree, whatever the
parser and the visitors are. -/
theorem traverse_opens_classes
    (he : build (config options extraMetrics extraVisitors) grammar = .ok e)
    (hclasses : options.classUnits = true) (memories : List FileMemory) (file : String)
    (root : Node) (events : List (Event α)) :
    ∃ tree s, e.traverse file root memories events = .ok (tree, s) ∧
      tree.preorder.map UnitTree.spec = fileSpec file root :: (e.marking file root).units ∧
      (e.marking file root).preorder.map Marked.node = root.preorder ∧
      (∀ x ∈ (e.marking file root).preorder,
        x.unit.map (·.kind) = some .cls ↔ x.node.kind ∈ classTypes) ∧
      (tree.descendantsOfKind .cls).length =
        (root.preorder.filter isClass).length + (root.preorder.filter isClassWord).length ∧
      ((tree.descendantsOfKind .cls).length = (root.preorder.filter isClass).length ↔
        ∀ n ∈ root.preorder, n.token.isSome → n.kind ∉ classTypes) := by
  obtain ⟨registry, -, rfl⟩ := (build_eq_ok_iff _ _ _).mp he
  obtain ⟨tree, s, htraverse, -⟩ := traverse_contracts
    (engineOf (config options extraMetrics extraVisitors) grammar registry) file root memories events
  have hopens : ∀ x ∈ ((engineOf (config options extraMetrics extraVisitors) grammar
      registry).marking file root).preorder,
      x.unit.map (·.kind) = some .cls ↔ classTypes.contains x.node.kind = true := by
    intro x hx
    rw [kind_of_mem_marking rfl hx, startedKind_eq_cls_iff hclasses]
  have hcount : (tree.descendantsOfKind .cls).length =
      (root.preorder.filter isClass).length + (root.preorder.filter isClassWord).length := by
    rw [← countP_classTypes]
    refine length_openers _ file root htraverse (q := fun unit => unit.kind = .cls) ?_ rfl
    intro x hx
    rw [Bool.eq_iff_iff, ← hopens x hx, Option.any_eq_true, Option.map_eq_some_iff]
    simp only [decide_eq_true_eq]
  refine ⟨tree, s, htraverse, specs_of_traverse _ file root htraverse, Node.preorder_mark [] _ root,
    fun x hx => (hopens x hx).trans List.contains_iff_mem, hcount, ?_⟩
  rw [hcount, Nat.add_eq_left, List.length_eq_zero_iff, List.filter_eq_nil_iff]
  refine forall₂_congr fun n _ => ?_
  rw [isClassWord, Bool.and_eq_true, List.contains_iff_mem, not_and]

end

/-! ### The word of a class -/

/-- A class without anything in it. -/
def classText : String := "class A {}\n"

/-- The tree of the class: its first leaf is the word. -/
def classTree : RawNode :=
  let branch := fun (kind : String) (startByte endByte : Nat) (children : List RawNode) =>
    (⟨⟨kind, none, startByte, endByte, .ofOffset (Text.bytes classText) startByte,
      .ofOffset (Text.bytes classText) endByte, false, false, false⟩, children⟩ : RawNode)
  let name := rawLeaf classText "identifier" 6 7
  branch "program" 0 11
    [branch "class_declaration" 0 10
      [rawLeaf classText "class" 0 5,
        ⟨{ name.label with field := some "name" }, []⟩,
        branch "class_body" 8 10 [rawLeaf classText "\x7b" 8 9, rawLeaf classText "\x7d" 9 10]]]

/-- The configuration with units for classes, with the class for every
text. -/
def classEngine : Engine FileMemory Nat :=
  engineOf (config ⟨true, true⟩ [] []) (grammar fun _ => some classTree) ⟨MetricDefinition.standard⟩

theorem traverse_opens_classes_word :
    ∃ tree s,
      classEngine.traverse "a.js" (treeFor classText classTree) classEngine.initialMemories [] =
        .ok (tree, s) ∧
      (tree.descendantsOfKind .cls).length = 2 ∧
      (tree.descendantsOfKind .cls).length ≠
        ((treeFor classText classTree).preorder.filter isClass).length := by
  have he : build (config ⟨true, true⟩ [] []) (grammar fun _ => some classTree) =
      .ok classEngine := rfl
  obtain ⟨tree, s, htraverse, -, -, -, hcount, hagree⟩ := traverse_opens_classes he rfl
    classEngine.initialMemories "a.js" (treeFor classText classTree) []
  refine ⟨tree, s, htraverse, hcount.trans ?_, fun heq => ?_⟩
  · decide +kernel
  · have hword : ¬ ∀ n ∈ (treeFor classText classTree).preorder,
        n.token.isSome → n.kind ∉ classTypes := by decide +kernel
    exact hword (hagree.mp heq)

/-- In a file with one class, the word `class` starts a unit for a class too,
below that of the class, and has its line of code. -/
theorem keyword_starts_class_unit :
    build (config ⟨true, true⟩ [] []) (grammar fun _ => some classTree) = .ok classEngine ∧
      classEngine.grammar.parse classText = .ok (treeFor classText classTree) ∧
      ((treeFor classText classTree).preorder.filter isClass).length = 1 ∧
      (classEngine.scan classEngine.initialMemories "a.js" classText).result.toOption.map
          (fun tree => (tree.outline 0).map fun (depth, u) =>
            (depth, u.kind, u.key, u.own.value? Metric.linesOfCode)) =
        some [(0, .file, "a.js", none), (1, .cls, "A:1", none),
          (2, .cls, "<anonymous>:1", some 1)] := by
  have hparse : (grammar fun _ => some classTree).parse classText =
      .ok (treeFor classText classTree) := parse_eq_treeFor rfl rfl
  refine ⟨rfl, hparse, ?_, ?_⟩
  · decide +kernel
  · decide +kernel

end JavaScript
end SourceMetrics
