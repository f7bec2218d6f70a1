/-
# Lines of code, unit by unit

A line of code counts once in a file, however many tokens stand on it: on the
unit that the first of these tokens falls to.  That unit is not always the
one the line begins in, since tokens span lines and units share them:

    line 1   a(); function f() {     the tokens of a come first: file
    line 2     return `              function f
    line 3     `; } b();             the template comes first: function f

`linesCovered` are the lines of the tokens that have a text and are no
comments, and `firstUnit` is the unit of the first token that covers a line.
The visitor knows neither; it keeps the lines it has seen.  Of the nodes that
are still to come, those lines count that are not among them
(`countP_credits_lineCount`).
-/
import Mathlib.Data.Finset.Card
import SourceMetrics.Proofs.Visitor.Counting
import SourceMetrics.Proofs.Visitor.LinesOfCode

namespace SourceMetrics

open Amount

/-! ## Lines that are covered -/

namespace PlacedToken

/-- The lines of code that a token covers. -/
def codeLines (t : PlacedToken) : List Nat := Visitor.codeLines t.node t.token

end PlacedToken

/-- The lines that some token covers with code. -/
def linesCovered (tokens : List PlacedToken) : Finset Nat :=
  (tokens.flatMap PlacedToken.codeLines).toFinset

/-- The unit of the first token that covers a line with code. -/
def firstUnit (tokens : List PlacedToken) (line : Nat) : Option Nat :=
  (tokens.find? fun t => t.codeLines.contains line).map PlacedToken.unit

theorem mem_linesCovered {tokens : List PlacedToken} {line : Nat} :
    line ∈ linesCovered tokens ↔ ∃ t ∈ tokens, line ∈ t.codeLines := by
  rw [linesCovered, List.mem_toFinset, List.mem_flatMap]

theorem linesCovered_cons (t : PlacedToken) (tokens : List PlacedToken) :
    linesCovered (t :: tokens) = t.codeLines.toFinset ∪ linesCovered tokens := by
  rw [linesCovered, List.flatMap_cons, List.toFinset_append]
  rfl

theorem firstUnit_cons (t : PlacedToken) (tokens : List PlacedToken) (line : Nat) :
    firstUnit (t :: tokens) line =
      if line ∈ t.codeLines then some t.unit else firstUnit tokens line := by
  rw [firstUnit, List.find?_cons]
  by_cases hline : line ∈ t.codeLines
  · rw [List.contains_iff_mem.mpr hline, if_pos hline]
    rfl
  · have hmiss : t.codeLines.contains line = false := by
      rw [← Bool.not_eq_true, List.contains_iff_mem]
      exact hline
    rw [hmiss, if_neg hline]
    rfl

/-- A line that is covered is covered by a first token. -/
theorem exists_firstUnit {tokens : List PlacedToken} {line : Nat}
    (h : line ∈ linesCovered tokens) : ∃ i, firstUnit tokens line = some i := by
  obtain ⟨t, ht, hline⟩ := mem_linesCovered.mp h
  have hfound : (tokens.find? fun t => t.codeLines.contains line).isSome :=
    List.find?_isSome.mpr ⟨t, ht, List.contains_iff_mem.mpr hline⟩
  obtain ⟨first, hfirst⟩ := Option.isSome_iff_exists.mp hfound
  refine ⟨first.unit, ?_⟩
  rw [firstUnit, hfirst]
  rfl

namespace LineSet

/-- The lines of a set. -/
def toFinset (s : LineSet) : Finset Nat := s.toList.toFinset

theorem mem_toFinset {s : LineSet} {line : Nat} : line ∈ s.toFinset ↔ line ∈ s := by
  rw [toFinset, List.mem_toFinset, mem_toList]

theorem card_toFinset (s : LineSet) : s.toFinset.card = s.card := by
  have hnodup : s.toList.Nodup :=
    List.nodup_reverse.mpr (s.sorted.imp fun hgt => Nat.ne_of_gt hgt)
  exact List.toFinset_card_of_nodup hnodup

end LineSet

namespace Visitor

/-! ## What the visitor counts -/

theorem toFinset_seeLines (seen : LineSet) (lines : List Nat) :
    (seeLines seen lines).1.toFinset = lines.toFinset ∪ seen.toFinset := by
  ext line
  rw [LineSet.mem_toFinset, mem_seeLines, Finset.mem_union, LineSet.mem_toFinset,
    List.mem_toFinset, or_comm]

/-- As many lines are new as were not seen before. -/
theorem snd_seeLines (seen : LineSet) (lines : List Nat) :
    (seeLines seen lines).2 = (lines.toFinset \ seen.toFinset).card := by
  have hcard := card_seeLines seen lines
  rw [← LineSet.card_toFinset, ← LineSet.card_toFinset, toFinset_seeLines,
    ← Finset.card_sdiff_add_card, Nat.add_comm] at hcard
  exact (Nat.add_left_cancel hcard).symm

/-- What the visitor of lines of code makes of a node: the lines it has seen
then, and how many of them are new. -/
def lineCount (memory : FileMemory) (n : Node) : FileMemory × Nat :=
  let (seen, fresh) := seeLines memory.codeLines (linesShown .token n)
  ({ memory with codeLines := seen }, fresh)

theorem counts_linesOfCode {α : Type} [Amount α] (metric : Metric) :
    (linesOfCode metric : Visitor FileMemory α).Counts metric .token .empty lineCount where
  entry := .inl rfl
  first _ _ _ := rfl
  recalls n memory view := by
    rw [question_linesOfCode metric (fun h => by cases h)]
    rfl
  adds n memory view k := by
    rw [question_linesOfCode metric (fun h => by cases h)]
    exact Write.foldl_increment metric k _
  silent other hfile htoken n memory view := by
    cases other with
    | file => exact absurd rfl hfile
    | token => exact absurd rfl htoken
    | node => rfl
    | leave => rfl
    | leaveFile => rfl

theorem lineCount_of_none {n : Node} (h : n.token = none) (memory : FileMemory) :
    lineCount memory n = (memory, 0) := by
  have hlines : linesShown .token n = [] := by
    unfold linesShown
    rw [h]
  rw [lineCount, hlines]
  rfl

/-- What is first covered behind a token is not covered by the token. -/
theorem filter_linesCovered_cons (p : Nat → Bool) (seen : Finset Nat) (t : PlacedToken)
    (tokens : List PlacedToken) :
    (((linesCovered (t :: tokens)) \ seen).filter fun line =>
        (firstUnit (t :: tokens) line).any p) =
      ((t.codeLines.toFinset \ seen).filter fun _ => p t.unit) ∪
        ((linesCovered tokens) \ (t.codeLines.toFinset ∪ seen)).filter fun line =>
          (firstUnit tokens line).any p := by
  ext line
  simp only [linesCovered_cons, firstUnit_cons, Finset.mem_filter, Finset.mem_union,
    Finset.mem_sdiff, List.mem_toFinset, not_or]
  by_cases hline : line ∈ t.codeLines
  · simp only [hline, if_true, true_or, true_and, not_true_eq_false, false_and, and_false,
      or_false, Option.any_some]
  · simp only [hline, if_false, false_or, false_and, not_false_eq_true, true_and]

/-- The credits of some units are as many as there are lines first covered in
one of them, those left out that were seen before.  By induction on the
nodes: a line that the first token covers is credited to its unit or was seen
before, and is seen from then on. -/
theorem countP_credits_lineCount (p : Nat → Bool) (memory : FileMemory)
    (nodes : List PlacedNode) :
    (credits lineCount memory nodes).countP p =
      (((linesCovered (nodes.filterMap PlacedNode.token?)) \ memory.codeLines.toFinset).filter
        fun line => (firstUnit (nodes.filterMap PlacedNode.token?) line).any p).card := by
  induction nodes generalizing memory with
  | nil =>
      show 0 = ((∅ \ memory.codeLines.toFinset).filter _ : Finset Nat).card
      rw [Finset.empty_sdiff, Finset.filter_empty, Finset.card_empty]
  | cons c nodes ih =>
      rw [credits, List.filterMap_cons, PlacedNode.token?]
      cases htoken : c.node.token with
      | none =>
          rw [lineCount_of_none htoken]
          exact ih memory
      | some token =>
          have hlines : linesShown .token c.node = codeLines c.node token := by
            unfold linesShown
            rw [htoken]
          have hdisjoint : ∀ lines : List Nat, Disjoint
              ((lines.toFinset \ memory.codeLines.toFinset).filter fun _ => p c.unit)
              (((linesCovered (nodes.filterMap PlacedNode.token?)) \
                (lines.toFinset ∪ memory.codeLines.toFinset)).filter fun line =>
                  (firstUnit (nodes.filterMap PlacedNode.token?) line).any p) := by
            intro lines
            refine Finset.disjoint_left.mpr fun line hline hrest => ?_
            have hin := (Finset.mem_sdiff.mp (Finset.mem_filter.mp hline).1).1
            exact (Finset.mem_sdiff.mp (Finset.mem_filter.mp hrest).1).2
              (Finset.mem_union_left _ hin)
          simp only [Option.map_some]
          rw [List.countP_append, List.countP_replicate, ih, filter_linesCovered_cons,
            Finset.card_union_of_disjoint (hdisjoint _), lineCount, hlines, toFinset_seeLines,
            snd_seeLines, Finset.filter_const]
          congr 1
          show _ = (if p c.unit = true then _ else _ : Finset Nat).card
          split <;> rfl

/-- From the start of a file on, a unit has a credit for each line that is
first covered in it. -/
theorem count_credits_lineCount (nodes : List PlacedNode) (i : Nat) :
    (credits lineCount .empty nodes).count i =
      ((linesCovered (nodes.filterMap PlacedNode.token?)).filter fun line =>
        firstUnit (nodes.filterMap PlacedNode.token?) line = some i).card := by
  have hcount := countP_credits_lineCount (· == i) .empty nodes
  have hunseen : FileMemory.empty.codeLines.toFinset = ∅ := rfl
  rw [hunseen, Finset.sdiff_empty] at hcount
  refine hcount.trans (congrArg Finset.card (Finset.filter_congr fun line _ => ?_))
  rw [Option.any_eq_true]
  simp only [beq_iff_eq, exists_eq_right]

/-- From the start of a file on, there is a credit for each line that is
covered. -/
theorem length_credits_lineCount (nodes : List PlacedNode) :
    (credits lineCount .empty nodes).length =
      (linesCovered (nodes.filterMap PlacedNode.token?)).card := by
  have hcount := countP_credits_lineCount (fun _ => true) .empty nodes
  have hunseen : FileMemory.empty.codeLines.toFinset = ∅ := rfl
  rw [List.countP_true, hunseen, Finset.sdiff_empty] at hcount
  refine hcount.trans (congrArg Finset.card (Finset.filter_true_of_mem fun line hline => ?_))
  obtain ⟨i, hi⟩ := exists_firstUnit hline
  rw [hi]
  rfl

end Visitor

/-! ## The lines of code of a file -/

namespace Engine

open Visitor

variable {α : Type}

/-- The lines that tokens of a file cover are those of the tokens of its
tree. -/
theorem mem_linesCovered_placedTokens (e : Engine FileMemory α) (file : String) (root : Node)
    (line : Nat) :
    line ∈ linesCovered (e.placedTokens file root) ↔
      ∃ n ∈ root.preorder, ∃ t, n.token = some t ∧ (t.isComment = false ∧ t.text ≠ "") ∧
        n.span.startLine ≤ line ∧ line ≤ n.span.lastLine := by
  rw [mem_linesCovered, ← e.map_node_hosted file root]
  constructor
  · rintro ⟨t, ht, hline⟩
    obtain ⟨c, hc, hplaced⟩ := List.mem_filterMap.mp ht
    obtain ⟨token, htoken, rfl⟩ := Option.map_eq_some_iff.mp hplaced
    exact ⟨c.node, List.mem_map_of_mem hc, token, htoken, mem_codeLines.mp hline⟩
  · rintro ⟨n, hn, token, htoken, hline⟩
    obtain ⟨c, hc, rfl⟩ := List.mem_map.mp hn
    refine ⟨⟨c.unit, c.node, token⟩, List.mem_filterMap.mpr ⟨c, hc, ?_⟩, mem_codeLines.mpr hline⟩
    rw [PlacedNode.token?, htoken]
    rfl

variable [Amount α] {config : ScannerConfig FileMemory α}

/-- The lines of code of a file are those that its code tokens with a text
cover, from the line they start on to the last one they reach.  Each of them
counts once, on the innermost unit open at the first token in the order of
the tree that covers it; this unit has its number among those of the file.
So each unit has as own value the tally of the lines first covered in it, and
in exact amounts the values of all units add up to the number of lines.  This
holds for every tree, every list of extractors and whatever other visitors
there are. -/
theorem traverse_counts_linesOfCode {grammar : Grammar} {e : Engine FileMemory α}
    (he : build config grammar = .ok e) {metric : Metric} (hv : linesOfCode metric ∈ config.visitors)
    {memories : List FileMemory} (hmemories : memories.length = e.visitors.length) (file : String)
    (root : Node) (events : List (Event α)) :
    ∃ tree s, e.traverse file root memories events = .ok (tree, s) ∧
      Marked.Names (tree.preorder.map UnitTree.spec) (e.hosted file root)
        ((e.marking file root).innermost (fileSpec file root)) ∧
      (∀ line, line ∈ linesCovered (e.placedTokens file root) ↔
        ∃ n ∈ root.preorder, ∃ t, n.token = some t ∧ (t.isComment = false ∧ t.text ≠ "") ∧
          n.span.startLine ≤ line ∧ line ≤ n.span.lastLine) ∧
      (∀ line ∈ linesCovered (e.placedTokens file root), ∃ i u,
        firstUnit (e.placedTokens file root) line = some i ∧ tree.preorder[i]? = some u) ∧
      (∀ (i : Nat) (u : UnitTree α), tree.preorder[i]? = some u →
        u.own.value? metric =
          tally ((linesCovered (e.placedTokens file root)).filter fun line =>
            firstUnit (e.placedTokens file root) line = some i).card) ∧
      ∀ [LinearOrder α] [ExactCount α],
        ((tree.owns metric).map (·.getD 0)).sum =
          ofCount (linesCovered (e.placedTokens file root)).card := by
  obtain ⟨registry, hsound, rfl⟩ := (build_eq_ok_iff _ _ _).mp he
  obtain ⟨tree, s, htraverse, hscored⟩ := traverse_scores hsound hmemories hv
    (BuiltIn.linesOfCode metric).isLocal List.mem_cons_self (counts_linesOfCode metric) grammar file
    root events
  have hsilent : ∀ memory n, (linesOfCode metric : Visitor FileMemory α).hears n .token = false →
      lineCount memory n = (memory, 0) := by
    intro memory n hdeaf
    have hnone : n.token.isSome = false := hdeaf
    rw [Option.isSome_eq_false_iff, Option.isNone_iff_eq_none] at hnone
    exact lineCount_of_none hnone memory
  rw [credits_filter _ hsilent] at hscored
  refine ⟨tree, s, htraverse, names_of_traverse _ file root htraverse,
    mem_linesCovered_placedTokens _ file root, ?_, ?_, ?_⟩
  · intro line hline
    obtain ⟨i, hi⟩ := exists_firstUnit hline
    have hcredited : 0 < (credits lineCount .empty
        ((engineOf config grammar registry).hosted file root)).count i := by
      rw [count_credits_lineCount]
      exact Finset.card_pos.mpr ⟨line, Finset.mem_filter.mpr ⟨hline, hi⟩⟩
    have hlt := hscored.lt_length (List.count_pos_iff.mp hcredited)
    rw [UnitTree.owns, List.length_map] at hlt
    exact ⟨i, _, hi, List.getElem?_eq_getElem hlt⟩
  · intro i u hu
    rw [hscored.value_eq (UnitTree.getElem?_owns hu metric), count_credits_lineCount]
    rfl
  · intro _ _
    rw [hscored.sum_eq, length_credits_lineCount]
    rfl

/-! ## A template that ends in another unit's line -/

/-- A function that shares its first and its last line with the code around
it; a template of its own reaches the last line. -/
def sharedLines : Node :=
  let leaf := fun (kind text : String) (span : Span) =>
    (⟨kind, span, none, some ⟨text, .code⟩, []⟩ : Node)
  .branch "program" ⟨1, 1, 3, 20⟩
    [leaf "identifier" "a" (.onLine 1 1 2),
      .branch "function_declaration" ⟨1, 6, 3, 6⟩
        [leaf "function" "function" (.onLine 1 6 14), leaf "template" "\n" ⟨2, 10, 3, 2⟩,
          leaf ";" "" (.onLine 4 1 1)],
      leaf "identifier" "b" (.onLine 3 8 9)]

theorem traverse_counts_linesOfCode_shared :
    ∃ tree s,
      JavaScript.standardEngine.traverse "a.js" sharedLines
        JavaScript.standardEngine.initialMemories [] = .ok (tree, s) ∧
      (∀ u : UnitTree Nat, tree.preorder[0]? = some u →
        u.own.value? Metric.linesOfCode = some 1) ∧
      (∀ u : UnitTree Nat, tree.preorder[1]? = some u →
        u.own.value? Metric.linesOfCode = some 2) ∧
      tree.measures.get Metric.linesOfCode = 3 := by
  have hv : linesOfCode Metric.linesOfCode ∈
      (JavaScript.config .standard [] [] : ScannerConfig FileMemory Nat).visitors :=
    List.mem_iff_getElem?.mpr ⟨2, rfl⟩
  have hmemories : JavaScript.standardEngine.initialMemories.length =
      JavaScript.standardEngine.visitors.length := rfl
  obtain ⟨tree, s, htraverse, -, -, -, howns, htotal⟩ :=
    traverse_counts_linesOfCode JavaScript.build_standardEngine hv hmemories "a.js" sharedLines []
  refine ⟨tree, s, htraverse, fun u hu => ?_, fun u hu => ?_, ?_⟩
  · refine (howns 0 u hu).trans ?_
    decide +kernel
  · refine (howns 1 u hu).trans ?_
    decide +kernel
  · have haccounted : tree.Accounted ⟨MetricDefinition.standard⟩ := accounted_of_traverse htraverse
    have hlines : (⟨Metric.linesOfCode, .sum⟩ : MetricDefinition Nat) ∈ MetricDefinition.standard :=
      List.mem_iff_getElem?.mpr ⟨2, rfl⟩
    rw [UnitTree.get_measures_eq_sum (by decide) hlines rfl haccounted]
    refine htotal.trans ?_
    decide +kernel

end Engine
end SourceMetrics
