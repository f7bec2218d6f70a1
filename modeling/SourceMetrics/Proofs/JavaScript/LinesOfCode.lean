/-
# Lines of code of a JavaScript file

Lines are counted in two ways.  The lines of a file are those of its text,
which the root of its tree spans.  The lines of code come from the rows that
the parser gives for each token.  When these rows are those of the byte
offsets of the token, both ways agree on which lines there are: no line of
code lies beyond the last line of the file (`line_le_of_codeLines`), and there
are no more lines of code than lines (`scan_linesOfCode_within_lines`).

Which of the lines become lines of code is not told by the tree alone: the
visitor counts a line once, on the unit that is open when the first token
shows it.  The number of lines it keeps in mind is what it has added on all
units of the file together.
-/
import SourceMetrics.JavaScript.Scanner
import SourceMetrics.Proofs.SyntaxTree.Conversion
import SourceMetrics.Proofs.Visitor.LinesOfCode

namespace SourceMetrics.JavaScript

open Engine Visitor

variable {α : Type} [Amount α]

/-! ## The tree of a text -/

/-- The tree of a text that the parser finds no error in. -/
def treeFor (text : String) (root : RawNode) : Node :=
  root.convertRoot ⟨text.toUTF8, commentTypes⟩ (RawNode.textSpan text)

theorem parse_eq_treeFor {parser : String → Option RawNode} {text : String} {root : RawNode}
    (hparse : parser text = some root) (herror : root.label.hasError = false) :
    (grammar parser).parse text = .ok (treeFor text root) := by
  have htree : (grammar parser).parse text = Grammar.treeOf commentTypes text root := by
    simp only [grammar, Grammar.external, hparse]
  rw [htree, Grammar.treeOf, herror, RawNode.convertStack_eq]
  rfl

/-- The root of a tree spans as many lines as its text has, and at least one. -/
theorem linesSpanned_treeFor (text : String) (root : RawNode) :
    linesSpanned (treeFor text root).span = max (Text.lines text).length 1 := by
  show max (Text.lines text).length 1 - 1 + 1 = _
  omega

/-- The lines of code of a token are lines of its text. -/
theorem line_le_of_codeLines {text : String} {root : RawNode}
    (hplaced : ∀ l ∈ RawNode.preorderList root.children, l.children = [] → l.Placed text)
    {n : Node} (hn : n ∈ (treeFor text root).preorder) {t : Token} (htoken : n.token = some t)
    {line : Nat} (hline : line ∈ codeLines n t) :
    1 ≤ line ∧ line ≤ (Text.lines text).length := by
  obtain ⟨⟨-, htext⟩, hstart, hlast⟩ := mem_codeLines.mp hline
  have hsome : n.token.isSome := by
    rw [htoken]
    rfl
  obtain ⟨l, hl, hleaf, rfl⟩ := RawNode.exists_leaf_of_mem_convertRoot hsome hn
  obtain rfl := Option.some.inj htoken
  constructor
  · exact Nat.le_trans (Nat.succ_le_succ (Nat.zero_le _)) hstart
  · exact Nat.le_trans hlast (RawNode.lastLine_le_of_placed (hplaced l hl hleaf) htext)

/-! ## Lines and lines of code -/

section
variable {options : Options} {extraMetrics : List (MetricDefinition α)}
  {extraVisitors : List (Visitor FileMemory α)} {registry : MetricRegistry α}

/-- An engine of the configuration has the standard metrics. -/
theorem mem_registry_of_standard
    (hsound : Sound (config options extraMetrics extraVisitors) registry) {d : MetricDefinition α}
    (hd : d ∈ MetricDefinition.standard) : d ∈ registry.definitions := by
  rw [MetricRegistry.definitions_of_ofDefinitions hsound.registered]
  exact List.mem_append_left extraMetrics hd

/-- The total of a standard metric on a file is the sum of the own values of
all units. -/
theorem get_standard_eq_sum [LinearOrder α] [ExactAmount α]
    (hsound : Sound (config options extraMetrics extraVisitors) registry) {m : Metric}
    (hm : (⟨m, .sum⟩ : MetricDefinition α) ∈ MetricDefinition.standard) {tree : UnitTree α}
    (htree : tree.Accounted registry) :
    tree.measures.get m = ((tree.owns m).map (·.getD 0)).sum :=
  UnitTree.get_measures_eq_sum (MetricRegistry.nodup_of_ofDefinitions hsound.registered)
    (mem_registry_of_standard hsound hm) rfl htree

/-- The visitor of lines of code, alone in a pass, hears of all lines of code. -/
theorem exists_heard_iff {e : Engine FileMemory α} {metric : Metric}
    (h : e.Alone (linesOfCode metric)) (file : String) (root : Node) {line : Nat} :
    (∃ n, (.token, n) ∈ heard (e.schedule file root) ∧ line ∈ linesShown .token n) ↔
      ∃ n ∈ root.preorder, ∃ t, n.token = some t ∧ line ∈ codeLines n t := by
  constructor
  · rintro ⟨n, hn, hline⟩
    obtain ⟨hmem, -⟩ := (h.mem_heard_token rfl file root n).mp hn
    exact ⟨n, hmem, mem_linesShown_token.mp hline⟩
  · rintro ⟨n, hn, t, htoken, hline⟩
    have hsome : n.token.isSome := by
      rw [htoken]
      rfl
    exact ⟨n, (h.mem_heard_token rfl file root n).mpr ⟨hn, hsome⟩,
      mem_linesShown_token.mpr ⟨t, htoken, hline⟩⟩

/-- What the visitors of lines and of lines of code come to on a tree, among
all visitors of the configuration. -/
theorem traverse_counts (hsound : Sound (config options extraMetrics extraVisitors) registry)
    {memories : List FileMemory}
    (hmemories : memories.length = (config options extraMetrics extraVisitors).visitors.length)
    (root : Node) (grammar : Grammar) (file : String) (events : List (Event α)) :
    ∃ tree s memory,
      (engineOf (config options extraMetrics extraVisitors) grammar registry).traverse file root
        memories events = .ok (tree, s) ∧
      s.memories[2]? = some memory ∧
      (∀ line, line ∈ memory.codeLines ↔
        ∃ n ∈ root.preorder, ∃ t, n.token = some t ∧ line ∈ codeLines n t) ∧
      (∀ [LinearOrder α] [ExactCount α],
        ((tree.owns Metric.linesOfCode).map (·.getD 0)).sum =
          Amount.ofCount memory.codeLines.card) ∧
      ∃ below, tree.owns Metric.lines =
          some (0 + Amount.ofCount (linesSpanned root.span)) :: below ∧
        ∀ value ∈ below, value = none := by
  have hvisitor₁ : (config options extraMetrics extraVisitors).visitors[1]? =
      some (lines Metric.lines) := rfl
  have hvisitor₂ : (config options extraMetrics extraVisitors).visitors[2]? =
      some (linesOfCode Metric.linesOfCode) := rfl
  obtain ⟨tree, s, memory, htraverse, hmemory, hshown⟩ := traverse_keeps hsound hmemories hvisitor₂
    (BuiltIn.linesOfCode _).isLocal List.mem_cons_self (keeps_shown Metric.linesOfCode root) grammar
    file events
  obtain ⟨tree₁, s₁, memory₁, htraverse₁, -, hlines⟩ := traverse_keeps hsound hmemories hvisitor₁
    (BuiltIn.lines _).isLocal List.mem_cons_self (keeps_lines Metric.lines root) grammar file events
  cases htraverse.symm.trans htraverse₁
  refine ⟨tree, s, memory, htraverse, hmemory, fun line => ?_, ?_, hlines⟩
  · rw [hshown line]
    exact exists_heard_iff (alone_engineOf rfl grammar registry) file root
  intro _ _
  obtain ⟨tree₂, s₂, memory₂, htraverse₂, hmemory₂, hcard⟩ := traverse_keeps hsound hmemories
    hvisitor₂ (BuiltIn.linesOfCode _).isLocal List.mem_cons_self
    (keeps_card Metric.linesOfCode root) grammar file events
  cases htraverse.symm.trans htraverse₂
  obtain rfl := Option.some.inj (hmemory.symm.trans hmemory₂)
  exact hcard

/-- Scanned as JavaScript, a file has the lines of its text and lines of code
among these only.  The parser may be any, as long as it reports no error and
the points of its leaves are those of their byte offsets.  The visitor of
lines of code, third of the configuration, keeps in mind the lines that it
counts: those of the tokens that have a text and are no comments.  All of
them lie between one and the lines of the file, which are those of the text,
and one at least.  In exact amounts both are the totals of the file, so that
there are no more lines of code than lines. -/
theorem scan_linesOfCode_within_lines {parser : String → Option RawNode}
    {e : Engine FileMemory α}
    (he : build (config options extraMetrics extraVisitors) (grammar parser) = .ok e)
    {memories : List FileMemory} (hmemories : memories.length = e.visitors.length)
    {text : String} {root : RawNode} (hparse : parser text = some root)
    (herror : root.label.hasError = false)
    (hplaced : ∀ l ∈ RawNode.preorderList root.children, l.children = [] → l.Placed text)
    (key : String) :
    ∃ parsed tree memories' events memory,
      e.grammar.parse text = .ok parsed ∧
      e.scan memories key text = ⟨.ok tree, memories', events⟩ ∧
      e.visitors[2]? = some (.linesOfCode Metric.linesOfCode) ∧ memories'[2]? = some memory ∧
      (∀ line, line ∈ memory.codeLines ↔
        ∃ n ∈ parsed.preorder, ∃ t, n.token = some t ∧ line ∈ Visitor.codeLines n t) ∧
      tree.own.value? Metric.lines =
        some (0 + Amount.ofCount (max (Text.lines text).length 1)) ∧
      (∀ line ∈ memory.codeLines, 1 ≤ line ∧ line ≤ max (Text.lines text).length 1) ∧
      ∀ [LinearOrder α] [ExactCount α],
        tree.measures.get Metric.lines = Amount.ofCount (max (Text.lines text).length 1) ∧
        tree.measures.get Metric.linesOfCode = Amount.ofCount memory.codeLines.card ∧
        tree.measures.get Metric.linesOfCode ≤ tree.measures.get Metric.lines := by
  obtain ⟨registry, hsound, rfl⟩ := (build_eq_ok_iff _ _ _).mp he
  obtain ⟨tree, s, memory, htraverse, hmemory, hcounted, hcard, below, howns, hbelow⟩ :=
    traverse_counts hsound hmemories (treeFor text root) (grammar parser) key
      [.parsed key (treeFor text root).nodeCount]
  rw [linesSpanned_treeFor] at howns
  have haccounted : tree.Accounted registry := accounted_of_traverse htraverse
  have hparsed : (engineOf (config options extraMetrics extraVisitors) (grammar parser)
      registry).grammar.parse text = .ok (treeFor text root) := parse_eq_treeFor hparse herror
  have hwithin : ∀ line ∈ memory.codeLines, 1 ≤ line ∧ line ≤ max (Text.lines text).length 1 := by
    intro line hline
    obtain ⟨n, hn, t, htoken, hshown⟩ := (hcounted line).mp hline
    obtain ⟨hone, hle⟩ := line_le_of_codeLines hplaced hn htoken hshown
    exact ⟨hone, hle.trans (le_max_left _ _)⟩
  refine ⟨treeFor text root, tree, s.memories,
    (Event.scanned key tree.unitCount :: s.events).reverse, memory, hparsed, ?_, rfl, hmemory,
    hcounted, ?_, hwithin, ?_⟩
  · simp only [scan, hparsed, htraverse]
  · rw [UnitTree.owns_eq_cons] at howns
    exact (List.cons.inj howns).1
  · intro _ _
    have hlinesTotal : tree.measures.get Metric.lines =
        Amount.ofCount (max (Text.lines text).length 1) := by
      have hstandard : (⟨Metric.lines, .sum⟩ : MetricDefinition α) ∈ MetricDefinition.standard :=
        List.mem_cons_of_mem _ List.mem_cons_self
      rw [get_standard_eq_sum hsound hstandard haccounted, howns, List.map_cons, List.sum_cons,
        ExactAmount.sum_eq_zero hbelow, Option.getD_some, ExactAmount.add_zero,
        ExactAmount.zero_add]
    have hcodeTotal : tree.measures.get Metric.linesOfCode =
        Amount.ofCount memory.codeLines.card := by
      have hstandard : (⟨Metric.linesOfCode, .sum⟩ : MetricDefinition α) ∈
          MetricDefinition.standard :=
        List.mem_cons_of_mem _ (List.mem_cons_of_mem _ List.mem_cons_self)
      rw [get_standard_eq_sum hsound hstandard haccounted]
      exact hcard
    refine ⟨hlinesTotal, hcodeTotal, ?_⟩
    rw [hlinesTotal, hcodeTotal]
    exact ExactCount.ofCount_le_ofCount (LineSet.card_le hwithin)

end

/-! ## A template over two lines -/

/-- A leaf of the given stretch of a text, at the points of its bytes. -/
def rawLeaf (text kind : String) (startByte endByte : Nat) : RawNode :=
  let bytes := Text.bytes text
  ⟨⟨kind, none, startByte, endByte, .ofOffset bytes startByte, .ofOffset bytes endByte, false,
    false, false⟩, []⟩

/-- A template that ends on the second of three lines, the last of them
blank. -/
def templateText : String := "`\n`;\n\n"

/-- The tree of the template: its middle token ends behind a line break. -/
def templateTree : RawNode :=
  let branch := fun (kind : String) (endByte : Nat) (children : List RawNode) =>
    (⟨⟨kind, none, 0, endByte, ⟨0, 0⟩, .ofOffset (Text.bytes templateText) endByte, false, false,
      false⟩, children⟩ : RawNode)
  branch "program" 6
    [branch "expression_statement" 4
      [branch "template_string" 3
        [rawLeaf templateText "`" 0 1, rawLeaf templateText "string_fragment" 1 2,
          rawLeaf templateText "`" 2 3],
        rawLeaf templateText ";" 3 4]]

/-- The standard configuration, with the template for every text. -/
def templateEngine : Engine FileMemory Nat :=
  engineOf (config .standard [] []) (grammar fun _ => some templateTree) ⟨MetricDefinition.standard⟩

theorem placed_templateTree :
    ∀ l ∈ RawNode.preorderList templateTree.children, l.children = [] → l.Placed templateText := by
  have hplaced : ∀ l ∈ RawNode.preorderList templateTree.children,
      l.children.isEmpty → l.Placed templateText := by decide
  exact fun l hl hleaf => hplaced l hl (List.isEmpty_iff.mpr hleaf)

theorem scan_linesOfCode_within_lines_template :
    ∃ tree memories events memory,
      templateEngine.scan templateEngine.initialMemories "a.js" templateText =
        ⟨.ok tree, memories, events⟩ ∧
      memories[2]? = some memory ∧ (∀ line ∈ memory.codeLines, 1 ≤ line ∧ line ≤ 3) ∧
      tree.own.value? Metric.lines = some 3 ∧ tree.measures.get Metric.linesOfCode = 2 ∧
      tree.measures.get Metric.linesOfCode ≤ tree.measures.get Metric.lines := by
  have he : build (config .standard [] []) (grammar fun _ => some templateTree) =
      .ok templateEngine := rfl
  have hmemories : templateEngine.initialMemories.length = templateEngine.visitors.length := rfl
  have hparse : (fun _ : String => some templateTree) templateText = some templateTree := rfl
  have herror : templateTree.label.hasError = false := rfl
  have hlines : max (Text.lines templateText).length 1 = 3 := by decide
  obtain ⟨-, tree, memories, events, memory, -, hscan, -, hmemory, -, hown, hwithin, htotals⟩ :=
    scan_linesOfCode_within_lines he hmemories hparse herror placed_templateTree "a.js"
  rw [hlines] at hown hwithin
  have hcode : (templateEngine.scan templateEngine.initialMemories "a.js"
      templateText).result.toOption.map (·.measures.get Metric.linesOfCode) = some 2 := by
    decide +kernel
  rw [hscan] at hcode
  exact ⟨tree, memories, events, memory, hscan, hmemory, hwithin, hown, Option.some.inj hcode,
    htotals.2.2⟩

end SourceMetrics.JavaScript
