/-
# Comments, unit by unit

The visitor of comments counts each comment once, as a comment with content
or as a blank one, on the unit the comment falls to.  One bit runs through
the whole file: once a code token was seen, comments are no longer header.
So with `ignoreHeader` the comments that count are those that some code token
of the file precedes, whichever units lie between (`countedComments`):

    // header          passed over
    /* header */       passed over
    code
    // comment         counts
    code  // comment   counts

The statement for a whole file is `traverse_counts_comments`: each unit has as own
values the tallies of its comments of either sort, and over all units these
are as many as there are comments that count.
-/
import SourceMetrics.Proofs.Visitor.Counting

namespace SourceMetrics

open Amount

/-! ## Comments that count -/

/-- The comments among tokens that count: all of them, or those that some
code token precedes. -/
def countedComments {β : Type} (isComment : β → Bool) (ignoreHeader : Bool) (tokens : List β) :
    List β :=
  (if ignoreHeader then tokens.dropWhile isComment else tokens).filter isComment

section
variable {β γ : Type} {isComment : β → Bool}

theorem countedComments_comment {t : β} (h : isComment t = true) (ignoreHeader : Bool)
    (tokens : List β) :
    countedComments isComment ignoreHeader (t :: tokens) =
      (if ignoreHeader then [] else [t]) ++ countedComments isComment ignoreHeader tokens := by
  cases ignoreHeader with
  | true =>
      show ((t :: tokens).dropWhile isComment).filter isComment = _
      rw [List.dropWhile_cons, h]
      rfl
  | false =>
      show (t :: tokens).filter isComment = _
      rw [List.filter_cons, h]
      rfl

/-- Behind a code token every comment counts. -/
theorem countedComments_code {t : β} (h : isComment t = false) (ignoreHeader : Bool)
    (tokens : List β) :
    countedComments isComment ignoreHeader (t :: tokens) =
      countedComments isComment false tokens := by
  have hcode : (t :: tokens).filter isComment = tokens.filter isComment := by
    rw [List.filter_cons, h]
    rfl
  cases ignoreHeader with
  | true =>
      show ((t :: tokens).dropWhile isComment).filter isComment = _
      rw [List.dropWhile_cons, h]
      exact hcode
  | false => exact hcode

/-- It makes no difference what is known of tokens besides. -/
theorem map_countedComments (f : γ → β) (ignoreHeader : Bool) (tokens : List γ) :
    (countedComments (isComment ∘ f) ignoreHeader tokens).map f =
      countedComments isComment ignoreHeader (tokens.map f) := by
  cases ignoreHeader with
  | true =>
      show ((tokens.dropWhile (isComment ∘ f)).filter (isComment ∘ f)).map f =
        ((tokens.map f).dropWhile isComment).filter isComment
      rw [List.dropWhile_map, List.filter_map]
  | false =>
      show (tokens.filter (isComment ∘ f)).map f = (tokens.map f).filter isComment
      rw [List.filter_map]

end

namespace PlacedToken

def isComment (t : PlacedToken) : Bool := t.token.isComment

end PlacedToken

namespace Visitor

variable (analyser : CommentAnalyser) (options : CommentOptions)

/-- Whether a comment that counts is a blank one: it holds the marker that is
looked for, or nothing is left of it without its delimiters. -/
def countsAsBlank (t : Token) : Bool :=
  isMarked options t || analyser.isBlank (analyser.strip t.text)

theorem commentMetric_eq_blank_iff (h : options.commentMetric ≠ options.blankMetric) (t : Token) :
    commentMetric analyser options t = options.blankMetric ↔ countsAsBlank analyser options t := by
  rw [commentMetric, countsAsBlank]
  split
  next hblank => exact iff_of_true rfl hblank
  next hcontent => exact iff_of_false h hcontent

theorem commentMetric_eq_comment_iff (h : options.commentMetric ≠ options.blankMetric) (t : Token) :
    commentMetric analyser options t = options.commentMetric ↔
      ¬ countsAsBlank analyser options t := by
  rw [commentMetric, countsAsBlank]
  split
  next hblank => exact iff_of_false h.symm (not_not_intro hblank)
  next hcontent => exact iff_of_true rfl hcontent

/-! ## What the visitor counts -/

/-- What the visitor of comments makes of a node: what it has in mind then,
and how many ones it adds to a metric. -/
def commentCount (m : Metric) (memory : FileMemory) (n : Node) : FileMemory × Nat :=
  match n.token with
  | none => (memory, 0)
  | some t =>
    if t.isComment then
      (memory,
        if options.ignoreHeader && !memory.seenCode then 0
        else if commentMetric analyser options t = m then 1 else 0)
    else ({ memory with seenCode := true }, 0)

variable {α : Type} [Amount α]

/-- The writes for a comment add one to the metric it counts under. -/
theorem foldl_commentWrites (m : Metric) (seenCode : Bool) (n : Node) (t : Token) (k : Nat) :
    (commentWrites analyser options seenCode n t).foldl (Write.revise m) (tally k : Option α) =
      tally (k + if options.ignoreHeader && !seenCode then 0
        else if commentMetric analyser options t = m then 1 else 0) := by
  have hmarks : ∀ value : Option α,
      (if isMarked options t then [Write.markNoSonar n.startLine] else []).foldl
        (Write.revise m) value = value := by
    intro value
    split <;> rfl
  rw [commentWrites, List.foldl_append, hmarks]
  by_cases hskipped : (options.ignoreHeader && !seenCode) = true
  · rw [if_pos hskipped, if_pos hskipped]
    rfl
  · rw [if_neg hskipped, if_neg hskipped]
    by_cases hm : commentMetric analyser options t = m
    · rw [if_pos hm, hm]
      exact Write.foldl_increment m k 1
    · rw [if_neg hm]
      exact if_neg hm

/-- The visitor answers for the token of a node. -/
theorem question_comments {n : Node} {t : Token} (ht : n.token = some t) (memory : FileMemory)
    (view : UnitView α) :
    (Hook.token.question n : Engine.Question FileMemory α) (comments analyser options) memory
        view =
      if t.isComment then (memory, commentWrites analyser options memory.seenCode n t)
      else ({ memory with seenCode := true }, []) := by
  unfold Hook.question
  rw [ht]
  rfl

theorem question_comments_none {n : Node} (ht : n.token = none) (memory : FileMemory)
    (view : UnitView α) :
    (Hook.token.question n : Engine.Question FileMemory α) (comments analyser options) memory
      view = (memory, []) := by
  unfold Hook.question
  rw [ht]

theorem counts_comments (m : Metric) :
    (comments analyser options : Visitor FileMemory α).Counts m .token .empty
      (commentCount analyser options m) where
  entry := .inl rfl
  first _ _ _ := rfl
  recalls n memory view := by
    rw [commentCount]
    cases ht : n.token with
    | none => rw [question_comments_none analyser options ht]
    | some t =>
        rw [question_comments analyser options ht]
        show _ = (if t.isComment then _ else _ : FileMemory × Nat).1
        split <;> rfl
  adds n memory view k := by
    rw [commentCount]
    cases ht : n.token with
    | none =>
        rw [question_comments_none analyser options ht]
        rfl
    | some t =>
        rw [question_comments analyser options ht]
        show _ = tally (k + (if t.isComment then _ else _ : FileMemory × Nat).2)
        split
        next => exact foldl_commentWrites analyser options m memory.seenCode n t k
        next => rfl
  silent other hfile htoken n memory view := by
    cases other with
    | file => exact absurd rfl hfile
    | token => exact absurd rfl htoken
    | node => rfl
    | leave => rfl
    | leaveFile => rfl

/-- The credits of a metric are the units of the comments counted under it.
By induction on the nodes: the bit kept in mind says whether the header is
over. -/
theorem credits_commentCount (m : Metric) (memory : FileMemory) (nodes : List PlacedNode) :
    credits (commentCount analyser options m) memory nodes =
      ((countedComments PlacedToken.isComment (options.ignoreHeader && !memory.seenCode)
          (nodes.filterMap PlacedNode.token?)).filter
        fun t => commentMetric analyser options t.token = m).map PlacedToken.unit := by
  induction nodes generalizing memory with
  | nil =>
      show [] = List.map _ (List.filter _ (List.filter _ (if _ then [] else [])))
      split <;> rfl
  | cons c nodes ih =>
      rw [credits, List.filterMap_cons, PlacedNode.token?, commentCount]
      cases htoken : c.node.token with
      | none => exact ih memory
      | some t =>
          by_cases hcomment : t.isComment = true
          · have hplaced : PlacedToken.isComment ⟨c.unit, c.node, t⟩ = true := hcomment
            simp only [Option.map_some]
            rw [if_pos hcomment, ih memory, countedComments_comment hplaced]
            by_cases hskipped : (options.ignoreHeader && !memory.seenCode) = true
            · rw [if_pos hskipped, if_pos hskipped]
              rfl
            · rw [if_neg hskipped, if_neg hskipped, List.singleton_append, List.filter_cons]
              by_cases hm : commentMetric analyser options t = m
              · simp only [hm, decide_true, if_true, List.map_cons]
                rfl
              · simp only [hm, decide_false, Bool.false_eq_true, if_false]
                rfl
          · have hplaced : PlacedToken.isComment ⟨c.unit, c.node, t⟩ = false :=
              Bool.not_eq_true _ ▸ hcomment
            simp only [Option.map_some]
            rw [if_neg hcomment, ih, countedComments_code hplaced]
            simp only [Bool.not_true, Bool.and_false]
            rfl

end Visitor

/-! ## The comments of a file -/

namespace PlacedToken

/-- Of tokens of some sort, those that fall to a unit. -/
theorem count_map_unit (p : PlacedToken → Bool) (tokens : List PlacedToken) (i : Nat) :
    ((tokens.filter p).map unit).count i = tokens.countP fun t => t.unit == i && p t := by
  rw [List.count_eq_countP, List.countP_map, List.countP_filter]
  rfl

end PlacedToken

namespace Engine

open Visitor

variable {α : Type} [Amount α] {config : ScannerConfig FileMemory α}
  {registry : MetricRegistry α} {analyser : CommentAnalyser} {options : CommentOptions}

/-- In a configuration that is accepted the two metrics of comments differ. -/
theorem Sound.commentMetric_ne_blankMetric (hsound : Sound config registry)
    (hv : comments analyser options ∈ config.visitors) :
    options.commentMetric ≠ options.blankMetric := by
  have hnodup : [options.commentMetric, options.blankMetric].Nodup :=
    (List.nodup_flatMap.mp hsound.accepts.nodup).1 _ hv
  intro heq
  rw [heq] at hnodup
  exact (List.nodup_cons.mp hnodup).1 List.mem_cons_self

/-- On every unit of a file, a metric of comments is scored by the comments
that are counted under it. -/
theorem traverse_scores_comments (hsound : Sound config registry) {memories : List FileMemory}
    (hmemories : memories.length = config.visitors.length)
    (hv : comments analyser options ∈ config.visitors) {m : Metric}
    (hm : m ∈ [options.commentMetric, options.blankMetric]) (grammar : Grammar) (file : String)
    (root : Node) (events : List (Event α)) :
    ∃ tree s,
      (engineOf config grammar registry).traverse file root memories events = .ok (tree, s) ∧
      Scored (((countedComments PlacedToken.isComment options.ignoreHeader
          ((engineOf config grammar registry).placedTokens file root)).filter
            fun t => commentMetric analyser options t.token = m).map PlacedToken.unit)
        (tree.owns m) := by
  obtain ⟨tree, s, htraverse, hscored⟩ := traverse_scores hsound hmemories hv
    (BuiltIn.comments analyser options).isLocal hm (counts_comments analyser options m) grammar file
    root events
  have hsilent : ∀ memory n, (comments analyser options : Visitor FileMemory α).hears n .token =
      false → commentCount analyser options m memory n = (memory, 0) := by
    intro memory n hdeaf
    have hnone : n.token.isSome = false := hdeaf
    rw [Option.isSome_eq_false_iff, Option.isNone_iff_eq_none] at hnone
    rw [commentCount, hnone]
  rw [credits_filter _ hsilent, credits_commentCount] at hscored
  have hstart : (options.ignoreHeader && !FileMemory.empty.seenCode) = options.ignoreHeader :=
    Bool.and_true _
  rw [hstart] at hscored
  exact ⟨tree, s, htraverse, hscored⟩

/-- Every comment of a file counts once, but with `ignoreHeader` those that no
code token precedes.  It counts on the innermost unit open at it, which has
its number among the units of the file, as a blank one or as one with
content: each unit has as own values of the two metrics, which differ, the
tallies of its comments of either sort.  In exact amounts the values of both
metrics on all units add up to the number of comments that count.  This
holds for every tree, every list of extractors, every analyser and whatever
other visitors there are. -/
theorem traverse_counts_comments {grammar : Grammar} {e : Engine FileMemory α}
    (he : build config grammar = .ok e) (hv : comments analyser options ∈ config.visitors)
    {memories : List FileMemory} (hmemories : memories.length = e.visitors.length) (file : String)
    (root : Node) (events : List (Event α)) :
    ∃ tree s, e.traverse file root memories events = .ok (tree, s) ∧
      Marked.Names (tree.preorder.map UnitTree.spec) (e.hosted file root)
        ((e.marking file root).innermost (fileSpec file root)) ∧
      options.commentMetric ≠ options.blankMetric ∧
      (∀ (i : Nat) (u : UnitTree α), tree.preorder[i]? = some u →
        u.own.value? options.commentMetric =
          tally ((countedComments PlacedToken.isComment options.ignoreHeader
            (e.placedTokens file root)).countP
              fun t => t.unit == i && !countsAsBlank analyser options t.token) ∧
        u.own.value? options.blankMetric =
          tally ((countedComments PlacedToken.isComment options.ignoreHeader
            (e.placedTokens file root)).countP
              fun t => t.unit == i && countsAsBlank analyser options t.token)) ∧
      ∀ [LinearOrder α] [ExactCount α],
        ((tree.owns options.commentMetric).map (·.getD 0)).sum +
            ((tree.owns options.blankMetric).map (·.getD 0)).sum =
          ofCount (countedComments Token.isComment options.ignoreHeader
            (root.preorder.filterMap Node.token)).length := by
  obtain ⟨registry, hsound, rfl⟩ := (build_eq_ok_iff _ _ _).mp he
  have hne := hsound.commentMetric_ne_blankMetric hv
  obtain ⟨tree, s, htraverse, hcomment⟩ := traverse_scores_comments hsound hmemories hv
    List.mem_cons_self grammar file root events
  obtain ⟨tree', s', htraverse', hblank⟩ := traverse_scores_comments hsound hmemories hv
    (List.mem_cons_of_mem _ List.mem_cons_self) grammar file root events
  cases htraverse.symm.trans htraverse'
  -- The metric a comment is counted under tells its sort.
  simp only [commentMetric_eq_comment_iff analyser options hne, Bool.not_eq_true,
    Bool.decide_eq_false] at hcomment
  simp only [commentMetric_eq_blank_iff analyser options hne, Bool.decide_eq_true] at hblank
  refine ⟨tree, s, htraverse, names_of_traverse _ file root htraverse, hne, ?_, ?_⟩
  · intro i u hu
    refine ⟨?_, ?_⟩
    · rw [hcomment.value_eq (UnitTree.getElem?_owns hu _), PlacedToken.count_map_unit]
    · rw [hblank.value_eq (UnitTree.getElem?_owns hu _), PlacedToken.count_map_unit]
  · intro _ _
    rw [hcomment.sum_eq, hblank.sum_eq, ← ExactCount.ofCount_add, List.length_map,
      List.length_map, Nat.add_comm, ← List.length_eq_length_filter_add,
      ← map_token_placedTokens _ file root, ← map_countedComments, List.length_map]
    rfl

/-! ## A function behind a header -/

/-- A comment, and a function with a comment of either sort in it. -/
def headedFunction : Node :=
  let leaf := fun (kind text : String) (sort : TokenKind) (line : Nat) =>
    (⟨kind, .onLine line 1 20, none, some ⟨text, sort⟩, []⟩ : Node)
  .branch "program" ⟨1, 1, 5, 1⟩
    [leaf "comment" "// header" .comment 1,
      .branch "function_declaration" ⟨2, 1, 4, 20⟩
        [leaf "function" "function" .code 2, leaf "comment" "// NOSONAR reads" .comment 3,
          leaf "comment" "// writes" .comment 4]]

theorem traverse_counts_comments_headed :
    ∃ tree s,
      JavaScript.standardEngine.traverse "a.js" headedFunction
        JavaScript.standardEngine.initialMemories [] = .ok (tree, s) ∧
      (∀ u : UnitTree Nat, tree.preorder[0]? = some u →
        u.own.value? Metric.commentLines = none ∧ u.own.value? Metric.commentBlankLines = none) ∧
      (∀ u : UnitTree Nat, tree.preorder[1]? = some u →
        u.own.value? Metric.commentLines = some 1 ∧
        u.own.value? Metric.commentBlankLines = some 1) ∧
      tree.measures.get Metric.commentLines + tree.measures.get Metric.commentBlankLines = 2 := by
  have hv : comments JavaScript.commentAnalyser (JavaScript.commentOptions .standard) ∈
      (JavaScript.config .standard [] [] : ScannerConfig FileMemory Nat).visitors :=
    List.mem_iff_getElem?.mpr ⟨3, rfl⟩
  have hmemories : JavaScript.standardEngine.initialMemories.length =
      JavaScript.standardEngine.visitors.length := rfl
  obtain ⟨tree, s, htraverse, -, -, howns, htotal⟩ :=
    traverse_counts_comments JavaScript.build_standardEngine hv hmemories "a.js" headedFunction []
  refine ⟨tree, s, htraverse, fun u hu => ?_, fun u hu => ?_, ?_⟩
  · obtain ⟨hcomment, hblank⟩ := howns 0 u hu
    refine ⟨hcomment.trans ?_, hblank.trans ?_⟩
    · decide +kernel
    · decide +kernel
  · obtain ⟨hcomment, hblank⟩ := howns 1 u hu
    refine ⟨hcomment.trans ?_, hblank.trans ?_⟩
    · decide +kernel
    · decide +kernel
  · have haccounted : tree.Accounted ⟨MetricDefinition.standard⟩ := accounted_of_traverse htraverse
    have hcomment : (⟨Metric.commentLines, .sum⟩ : MetricDefinition Nat) ∈
        MetricDefinition.standard := List.mem_iff_getElem?.mpr ⟨3, rfl⟩
    have hblank : (⟨Metric.commentBlankLines, .sum⟩ : MetricDefinition Nat) ∈
        MetricDefinition.standard := List.mem_iff_getElem?.mpr ⟨4, rfl⟩
    rw [UnitTree.get_measures_eq_sum (by decide) hcomment rfl haccounted,
      UnitTree.get_measures_eq_sum (by decide) hblank rfl haccounted]
    refine htotal.trans ?_
    decide +kernel

end Engine
end SourceMetrics
