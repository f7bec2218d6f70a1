/-
# The marked lines of a file

A visitor may mark lines of the file at hand, whatever unit is open.  For
most visitors what they mark rests on the node they are asked about and on
nothing else: they mark steadily (`Visitor.MarksSteadily`).  Then the lines
that a pass leaves on a file can be read off its acts, with no regard to the
states in between: they are the lines that some call may mark
(`Engine.mem_lines_of_steady`).

The visitor of comments is of this kind, even where it passes over the header
of a file: it does so only when it counts.  When no other visitor marks
lines, those of a file are the lines where its marked comments start, and
this is so in every file of a session (`Scanner.marks_lines_after`).
-/
import Mathlib.Data.List.Infix
import SourceMetrics.Proofs.Scan.SessionTotals
import SourceMetrics.Proofs.Scan.Traversal
import SourceMetrics.Proofs.Visitor.Comments

namespace SourceMetrics

/-- The search finds a word wherever it stands, and nowhere else. -/
theorem Text.occursIn_iff (word text : List Char) : occursIn word text = true ↔ word <:+: text := by
  induction text with
  | nil => rw [occursIn, List.isEmpty_iff, List.infix_nil]
  | cons c rest ih =>
      rw [occursIn, Bool.or_eq_true, ih, List.isPrefixOf_iff_prefix, List.infix_cons_iff]

/-! ## What a visitor may mark -/

namespace Visitor

variable {σ α : Type}

/-- In some state and on some unit the visitor marks a line, when a hook asks
it about a node. -/
def MayMark (v : Visitor σ α) (hook : Hook) (n : Node) (line : Nat) : Prop :=
  ∃ memory view, .markNoSonar line ∈ ((hook.question n : Engine.Question σ α) v memory view).2

/-- Whatever the visitor is asked, it marks no line. -/
def NeverMarks (v : Visitor σ α) : Prop := ∀ hook n line, ¬ v.MayMark hook n line

/-- What the visitor marks rests on the node alone. -/
def MarksSteadily (v : Visitor σ α) : Prop :=
  ∀ hook n line, v.MayMark hook n line → ∀ memory view,
    .markNoSonar line ∈ ((hook.question n : Engine.Question σ α) v memory view).2

/-- Only a node with a token is put to a visitor as a token. -/
theorem MayMark.exists_token {v : Visitor σ α} {n : Node} {line : Nat}
    (h : v.MayMark .token n line) :
    ∃ t memory view, n.token = some t ∧ .markNoSonar line ∈ (v.visitToken memory n t view).2 := by
  obtain ⟨memory, view, h⟩ := h
  unfold Hook.question at h
  cases htoken : n.token with
  | none =>
      rw [htoken] at h
      cases h
  | some t =>
      rw [htoken] at h
      exact ⟨t, memory, view, rfl, h⟩

theorem NeverMarks.steadily {v : Visitor σ α} (h : v.NeverMarks) : v.MarksSteadily :=
  fun hook n line hmay => absurd hmay (h hook n line)

end Visitor

namespace Engine

variable {σ α : Type}

/-- An act is the call of a visitor that may mark a line. -/
def MayMark (e : Engine σ α) (line : Nat) : Act → Prop
  | .calling hook position node _ => ∃ v, e.visitors[position]? = some v ∧ v.MayMark hook node line
  | .opening _ | .closing => False

variable [Amount α] {e : Engine σ α} {file : String} {s t : ScanState σ α}

/-- Where visitors mark steadily and each has a state, an act marks the lines
that it may mark. -/
theorem mark_mem_writesOf_iff (hsteady : ∀ v ∈ e.visitors, v.MarksSteadily)
    (hmemories : s.memories.length = e.visitors.length) {a : Act} (h : e.Performed file s a t)
    (line : Nat) : .markNoSonar line ∈ e.writesOf file s a ↔ e.MayMark line a := by
  cases h with
  | opening hu => exact iff_of_false List.not_mem_nil id
  | @answered hook position node u outer v memory hu hv hm =>
      rw [writesOf_answered hook node _ hu hv hm]
      constructor
      · exact fun hmark => ⟨v, hv, memory, _, hmark⟩
      · rintro ⟨w, hw, hmay⟩
        obtain rfl := Option.some.inj (hv.symm.trans hw)
        exact hsteady v (List.mem_of_getElem? hv) hook node line hmay memory _
  | @unanswered hook position node hs hnone =>
      rw [writesOf_unanswered hook node _ hs hnone]
      refine iff_of_false List.not_mem_nil ?_
      rintro ⟨v, hv, -⟩
      have hlt := (List.getElem?_eq_some_iff.mp hv).1
      rcases hnone with hnone | hnone
      · rw [hv] at hnone
        cases hnone
      · have := List.getElem?_eq_none_iff.mp hnone
        omega
  | closing hu => exact iff_of_false List.not_mem_nil id

/-- The lines that acts leave marked are those that were marked before and
those that one of the acts may mark. -/
theorem mem_lines_of_steady (hsteady : ∀ v ∈ e.visitors, v.MarksSteadily)
    (hmemories : s.memories.length = e.visitors.length) {acts : List Act}
    (h : e.performAll file acts s = some t) (line : Nat) :
    line ∈ t.noSonarLines ↔ line ∈ s.noSonarLines ∨ ∃ a ∈ acts, e.MayMark line a := by
  induction acts generalizing s with
  | nil =>
      cases h
      simp only [List.not_mem_nil, false_and, exists_false, or_false]
  | cons a acts ih =>
      obtain ⟨r, hr, hrest⟩ := Option.bind_eq_some_iff.mp h
      have hperformed := performed_of_perform e file hr
      rw [ih ((length_memories_of_performed hperformed).trans hmemories) hrest,
        mem_lines_of_performed hperformed line, mark_mem_writesOf_iff hsteady hmemories hperformed,
        List.exists_mem_cons_iff, or_assoc]

end Engine

/-! ## The marks of the visitor of comments -/

/-- The token of a node is a comment, and the marker stands in its text. -/
def Node.HoldsMarker (n : Node) : Prop :=
  ∃ t, n.token = some t ∧ t.isComment = true ∧ Visitor.noSonarMarker.toList <:+: t.text.toList

namespace Visitor

variable {α : Type} [Amount α] {analyser : CommentAnalyser} {options : CommentOptions}

theorem isMarked_iff (hon : options.noSonar = true) (t : Token) :
    isMarked options t = true ↔ noSonarMarker.toList <:+: t.text.toList := by
  rw [isMarked, hon, Bool.true_and, Text.containsWord, Text.occursIn_iff]

/-- The line is marked even where the comment is not counted. -/
theorem mark_mem_commentWrites (hon : options.noSonar = true) {seenCode : Bool} {n : Node}
    {t : Token} {line : Nat} :
    .markNoSonar line ∈ (commentWrites analyser options seenCode n t : List (Write α)) ↔
      noSonarMarker.toList <:+: t.text.toList ∧ n.startLine = line := by
  rw [commentWrites, List.mem_append, ← isMarked_iff hon]
  have hcount : .markNoSonar line ∉ (if options.ignoreHeader && !seenCode then []
      else [.increment (commentMetric analyser options t)] : List (Write α)) := by
    split
    · exact List.not_mem_nil
    · exact fun h => by cases List.mem_singleton.mp h
  rw [or_iff_left hcount]
  split
  next hmarked =>
    rw [List.mem_singleton, Write.markNoSonar.injEq, eq_comm]
    exact (and_iff_right hmarked).symm
  next hmarked => exact iff_of_false List.not_mem_nil fun h => hmarked h.1

/-- Asked for a token, the visitor of comments marks where a marked comment
starts.  It marks nothing else. -/
theorem mark_mem_question_comments (hon : options.noSonar = true) (hook : Hook) (n : Node)
    (line : Nat) (memory : FileMemory) (view : UnitView α) :
    .markNoSonar line ∈ ((hook.question n : Engine.Question FileMemory α)
        (comments analyser options) memory view).2 ↔
      hook = .token ∧ n.HoldsMarker ∧ n.startLine = line := by
  cases hook with
  | file => exact iff_of_false List.not_mem_nil fun h => by cases h.1
  | node => exact iff_of_false List.not_mem_nil fun h => by cases h.1
  | leave => exact iff_of_false List.not_mem_nil fun h => by cases h.1
  | leaveFile => exact iff_of_false List.not_mem_nil fun h => by cases h.1
  | token =>
      rw [eq_self_iff_true, true_and, Node.HoldsMarker]
      cases htoken : n.token with
      | none =>
          rw [question_comments_none analyser options htoken]
          exact iff_of_false List.not_mem_nil fun ⟨⟨_, ht, _⟩, _⟩ => by cases ht
      | some t =>
          rw [question_comments analyser options htoken]
          by_cases hcomment : t.isComment = true
          · rw [if_pos hcomment]
            refine (mark_mem_commentWrites hon).trans (and_congr_left fun _ => ?_)
            exact ⟨fun h => ⟨t, rfl, hcomment, h⟩, fun ⟨_, rfl, _, h⟩ => h⟩
          · rw [if_neg hcomment]
            exact iff_of_false List.not_mem_nil fun ⟨⟨_, ht, h, _⟩, _⟩ =>
              hcomment (Option.some.inj ht ▸ h)

theorem mayMark_comments_iff (hon : options.noSonar = true) (hook : Hook) (n : Node) (line : Nat) :
    (comments analyser options : Visitor FileMemory α).MayMark hook n line ↔
      hook = .token ∧ n.HoldsMarker ∧ n.startLine = line :=
  ⟨fun ⟨memory, view, h⟩ => (mark_mem_question_comments hon hook n line memory view).mp h,
    fun h => ⟨.empty, ⟨fun _ => 0, .file, "", ""⟩,
      (mark_mem_question_comments hon hook n line _ _).mpr h⟩⟩

theorem marksSteadily_comments (hon : options.noSonar = true) :
    (comments analyser options : Visitor FileMemory α).MarksSteadily := by
  intro hook n line hmay memory view
  rw [mayMark_comments_iff hon] at hmay
  exact (mark_mem_question_comments hon hook n line memory view).mpr hmay

theorem neverMarks_counter (metric : Metric) (nodeTypes : List String) :
    (counter metric nodeTypes : Visitor FileMemory α).NeverMarks := by
  intro hook n line hmay
  cases hook with
  | token => obtain ⟨t, memory, view, -, h⟩ := hmay.exists_token; cases h
  | node => obtain ⟨memory, view, h⟩ := hmay; cases List.mem_singleton.mp h
  | file | leave | leaveFile => obtain ⟨memory, view, h⟩ := hmay; cases h

theorem neverMarks_lines (metric : Metric) : (lines metric : Visitor FileMemory α).NeverMarks := by
  intro hook n line hmay
  cases hook with
  | token => obtain ⟨t, memory, view, -, h⟩ := hmay.exists_token; cases h
  | file => obtain ⟨memory, view, h⟩ := hmay; cases List.mem_singleton.mp h
  | node | leave | leaveFile => obtain ⟨memory, view, h⟩ := hmay; cases h

theorem neverMarks_linesOfCode (metric : Metric) :
    (linesOfCode metric : Visitor FileMemory α).NeverMarks := by
  intro hook n line hmay
  cases hook with
  | token =>
      obtain ⟨t, memory, view, -, h⟩ := hmay.exists_token
      cases List.eq_of_mem_replicate h
  | file | node | leave | leaveFile => obtain ⟨memory, view, h⟩ := hmay; cases h

end Visitor

/-! ## The marked lines of a file -/

/-- The lines of a file are those where the marked comments of a syntax tree
start, in order, each once.  No line stands on a unit below the file. -/
structure UnitTree.MarksLinesOf {α : Type} (tree : UnitTree α) (root : Node) : Prop where
  ascending : tree.noSonarLines.Pairwise (· < ·)
  mem_iff : ∀ line, line ∈ tree.noSonarLines ↔
    ∃ n ∈ root.preorder, n.HoldsMarker ∧ n.startLine = line
  below : UnitTree.Unmarked tree.children

namespace Engine

/-- In a schedule every visitor that observes tokens is called for every node
of the tree that has one, and for no other node. -/
theorem calling_token_mem_schedule {σ α : Type} {e : Engine σ α}
    (hroutes : e.plan = DispatchPlan.empty.routes 0 e.visitors) (file : String) (root : Node)
    {position : Nat} {node : Node} :
    (∃ within, .calling .token position node within ∈ e.schedule file root) ↔
      node ∈ root.preorder ∧ node.token.isSome = true ∧
        ∃ v, e.visitors[position]? = some v ∧ v.observesTokens = true := by
  have hobserves : position ∈ e.plan.tokenObservers ↔
      ∃ v, e.visitors[position]? = some v ∧ v.observesTokens = true := by
    rw [hroutes, DispatchPlan.tokenObservers_routes, DispatchPlan.empty, List.nil_append,
      DispatchPlan.mem_positionsWhere]
    simp only [Nat.zero_add, exists_and_left, exists_eq_left']
  rw [← hobserves, ← mem_calledFor, calledFor_schedule e file root (fun h => by cases h)
    (fun h => by cases h) (fun h => by cases h), List.mem_flatMap]
  constructor
  · rintro ⟨n, hn, hpair⟩
    rw [DispatchPlan.entryPairs_token] at hpair
    split at hpair
    next htoken =>
      obtain ⟨p, hp, heq⟩ := List.mem_map.mp hpair
      cases heq
      exact ⟨hn, htoken, hp⟩
    next => cases hpair
  · rintro ⟨hn, htoken, hp⟩
    refine ⟨node, hn, ?_⟩
    rw [DispatchPlan.entryPairs_token, if_pos htoken]
    exact List.mem_map.mpr ⟨position, hp, rfl⟩

variable {α : Type} [Amount α] {e : Engine FileMemory α} {analyser : CommentAnalyser}
  {options : CommentOptions} {before after : List (Visitor FileMemory α)}

/-- Only the visitor of comments may mark a line. -/
theorem eq_comments_or_neverMarks
    (hvisitors : e.visitors = before ++ Visitor.comments analyser options :: after)
    (hothers : ∀ v ∈ before ++ after, v.NeverMarks) :
    ∀ v ∈ e.visitors, v = Visitor.comments analyser options ∨ v.NeverMarks := by
  intro v hv
  rw [hvisitors] at hv
  rcases List.mem_append.mp hv with hv | hv
  · exact .inr (hothers v (List.mem_append_left after hv))
  · rcases List.mem_cons.mp hv with rfl | hv
    · exact .inl rfl
    · exact .inr (hothers v (List.mem_append_right before hv))

/-- Of the acts of a file, those that may mark a line are the calls of the
visitor of comments for the marked comments that start there. -/
theorem exists_mayMark_schedule_iff
    (hvisitors : e.visitors = before ++ Visitor.comments analyser options :: after)
    (hroutes : e.plan = DispatchPlan.empty.routes 0 e.visitors) (hon : options.noSonar = true)
    (hothers : ∀ v ∈ before ++ after, v.NeverMarks) (file : String) (root : Node) (line : Nat) :
    (∃ a ∈ e.schedule file root, e.MayMark line a) ↔
      ∃ n ∈ root.preorder, n.HoldsMarker ∧ n.startLine = line := by
  have hcomments : e.visitors[before.length]? = some (Visitor.comments analyser options) := by
    rw [hvisitors, List.getElem?_append_right (Nat.le_refl _), Nat.sub_self]
    rfl
  constructor
  · rintro ⟨a, ha, hmay⟩
    cases a with
    | calling hook position node within =>
        obtain ⟨v, hv, hmay⟩ := hmay
        rcases eq_comments_or_neverMarks hvisitors hothers v (List.mem_of_getElem? hv)
          with rfl | hnever
        · obtain ⟨rfl, hmarker, hline⟩ := (Visitor.mayMark_comments_iff hon hook node line).mp hmay
          have hnode := ((calling_token_mem_schedule hroutes file root).mp ⟨within, ha⟩).1
          exact ⟨node, hnode, hmarker, hline⟩
        · exact absurd hmay (hnever hook node line)
    | opening unit => exact hmay.elim
    | closing => exact hmay.elim
  · rintro ⟨n, hn, hmarker, hline⟩
    have htoken : n.token.isSome = true := by
      obtain ⟨t, ht, -⟩ := hmarker
      rw [ht]
      rfl
    obtain ⟨within, hmem⟩ := (calling_token_mem_schedule hroutes file root).mpr
      ⟨hn, htoken, _, hcomments, rfl⟩
    exact ⟨_, hmem, _, hcomments,
      (Visitor.mayMark_comments_iff hon .token n line).mpr ⟨rfl, hmarker, hline⟩⟩

/-- A pass with one visitor of comments that looks for the marker, and no
other visitor that marks lines, leaves the lines of the marked comments. -/
theorem marksLinesOf_of_traverse
    (hvisitors : e.visitors = before ++ Visitor.comments analyser options :: after)
    (hroutes : e.plan = DispatchPlan.empty.routes 0 e.visitors) (hon : options.noSonar = true)
    (hothers : ∀ v ∈ before ++ after, v.NeverMarks) {memories : List FileMemory}
    (hmemories : memories.length = e.visitors.length) {file : String} {root : Node}
    {events : List (Event α)} {tree : UnitTree α} {s : ScanState FileMemory α}
    (h : e.traverse file root memories events = .ok (tree, s)) : tree.MarksLinesOf root := by
  obtain ⟨s', u, hperform, -, htraverse, -⟩ := traverse_does e file root memories events
  cases h.symm.trans htraverse
  obtain ⟨hbelow, hlines⟩ := unmarked_of_traverse h
  have hsteady : ∀ v ∈ e.visitors, v.MarksSteadily := by
    intro v hv
    rcases eq_comments_or_neverMarks hvisitors hothers v hv with rfl | hnever
    · exact Visitor.marksSteadily_comments hon
    · exact hnever.steadily
  refine ⟨?_, fun line => ?_, hbelow⟩
  · rw [hlines, LineSet.toList, List.pairwise_reverse]
    exact s.noSonarLines.sorted
  · have hstart : line ∉ (e.start file root memories events).noSonarLines :=
      LineSet.not_mem_empty line
    rw [hlines, LineSet.mem_toList, mem_lines_of_steady hsteady hmemories hperform line,
      or_iff_right hstart]
    exact exists_mayMark_schedule_iff hvisitors hroutes hon hothers file root line

end Engine

namespace Scanner

open UnitIndex

variable {α : Type} [Amount α] {config : ScannerConfig FileMemory α} {grammar : Grammar}
  {fresh : Scanner FileMemory α} {events : List (Event α)} {analyser : CommentAnalyser}
  {options : CommentOptions} {before after : List (Visitor FileMemory α)}

/-- The lines of a file, in a session with one visitor of comments that looks
for the marker and no other visitor that marks lines.  Whatever files the
scanner has been through, every pass over a tree gives a file whose lines are
those where the comments of this tree start that hold the marker, wherever
in the tree they stand and whatever else is made of them.  So it is with the
file that the index then holds, and with all that it took in before. -/
theorem marks_lines_after (hnew : new config grammar = .ok (fresh, events))
    (hvisitors : config.visitors = before ++ Visitor.comments analyser options :: after)
    (hon : options.noSonar = true) (hothers : ∀ v ∈ before ++ after, v.NeverMarks)
    (history : List Request) :
    let sc := fresh.after history
    (∀ file root evs, ∃ tree s, sc.engine.traverse file root sc.memories evs = .ok (tree, s) ∧
      tree.kind = .file ∧ tree.MarksLinesOf root) ∧
    (∀ r id, (sc.scanOne r).result = .ok id →
      ∃ text root tree, r.content = .ok text ∧ grammar.parse text = .ok root ∧
        (sc.scanOne r).scanner.index.toTree id = some tree ∧ tree.MarksLinesOf root) ∧
    (∀ project, sc.index.toTree projectId = some project → ∀ file ∈ project.children,
      ∃ text root, grammar.parse text = .ok root ∧ file.MarksLinesOf root) := by
  intro sc
  obtain ⟨registry, -, hfresh⟩ := new_eq_ok hnew
  obtain ⟨hengine, hmemories, t, ht, -, -, hfiles⟩ := files_after hnew history
  -- The fixed part of the scanner is that of its configuration.
  have hengine' : sc.engine = Engine.engineOf config grammar registry :=
    hengine.trans (congrArg engine hfresh)
  rw [← hengine] at hmemories hfiles
  have hgrammar : sc.engine.grammar = grammar := by rw [hengine', Engine.engineOf]
  have hlist : sc.engine.visitors = before ++ Visitor.comments analyser options :: after := by
    rw [hengine', Engine.engineOf, hvisitors]
  have hroutes : sc.engine.plan = DispatchPlan.empty.routes 0 sc.engine.visitors := by
    rw [hengine', Engine.engineOf]
  have hscans : ∀ {ms key text tree}, ms.length = sc.engine.visitors.length →
      (sc.engine.scan ms key text).result = .ok tree →
      ∃ root, grammar.parse text = .ok root ∧ tree.MarksLinesOf root := by
    intro ms key text tree hms hscan
    obtain ⟨root, s, hparse, htraverse⟩ := Engine.exists_traverse_of_scan hscan
    exact ⟨root, hgrammar ▸ hparse,
      Engine.marksLinesOf_of_traverse hlist hroutes hon hothers hms htraverse⟩
  refine ⟨?_, ?_, ?_⟩
  · intro file root evs
    obtain ⟨s, u, -, -, htraverse, hshape⟩ :=
      Engine.traverse_does sc.engine file root sc.memories evs
    exact ⟨_, s, htraverse, congrArg (·.unit.kind) hshape,
      Engine.marksLinesOf_of_traverse hlist hroutes hon hothers hmemories htraverse⟩
  · intro r id hid
    rcases sc.scanOne_cases r with ⟨err, -, hone⟩ | ⟨tree, -, -, hone⟩ |
      ⟨tree, id', index, hscan, -, hinsert, hone⟩
    · rw [hone] at hid
      cases hid
    · rw [hone] at hid
      cases hid
    · rw [hone] at hid
      obtain rfl := Except.ok.inj hid
      obtain ⟨text, hcontent, htext⟩ := Engine.exists_scan_of_scanRequest hscan
      obtain ⟨root, hparse, hlines⟩ := hscans hmemories htext
      refine ⟨text, root, tree, hcontent, hparse, ?_, hlines⟩
      rw [hone]
      exact ht.toTree_insert hinsert
  · intro project hproject file hfile
    rw [toTree_of_holds none projectId t ht.holds] at hproject
    obtain rfl := Option.some.inj hproject
    obtain ⟨ms, key, text, hms, hscan⟩ := hfiles file hfile
    exact ⟨text, hscans hms hscan⟩

/-! ## Two files with marked comments -/

/-- A text with a marked header and a marked comment in a function, and a
text with a marked comment further below. -/
def markedTexts : Grammar :=
  let leaf (line : Nat) (text : String) (kind : TokenKind) : Node :=
    ⟨"leaf", .onLine line 1 20, none, some ⟨text, kind⟩, []⟩
  .ofTable "sample"
    [("first", .ok (.branch "program" ⟨1, 1, 4, 20⟩
      [leaf 1 "// NOSONAR from here" .comment,
        .branch "function_declaration" ⟨2, 1, 4, 20⟩
          [leaf 2 "NOSONAR" .code, leaf 3 "/* see (NOSONAR2) */" .comment,
            leaf 4 "// no sonar" .comment]])),
      ("other", .ok (.branch "program" ⟨9, 1, 9, 20⟩ [leaf 9 "// NOSONAR" .comment]))] none

theorem marks_lines_after_two :
    ∃ fresh events,
      new (JavaScript.config .standard [] [] : ScannerConfig FileMemory Nat) markedTexts =
        .ok (fresh, events) ∧
      let sc := fresh.after [.file (.text "a" "other"), .file (.text "a" "other")]
      (sc.scanOne (.text "b" "first")).result = .ok 2 ∧
      ((sc.scanOne (.text "b" "first")).scanner.index.toTree 2).map (·.noSonarLines) =
        some [1, 3] ∧
      ∃ root tree, markedTexts.parse "first" = .ok root ∧
        (sc.scanOne (.text "b" "first")).scanner.index.toTree 2 = some tree ∧
        tree.MarksLinesOf root := by
  have hnew : new (JavaScript.config .standard [] [] : ScannerConfig FileMemory Nat) markedTexts =
      .ok (_, _) := rfl
  have hothers : ∀ v ∈ [Visitor.counter Metric.functions JavaScript.functionTypes,
        Visitor.lines Metric.lines, Visitor.linesOfCode Metric.linesOfCode] ++
      ([Visitor.counter Metric.statements JavaScript.statementTypes,
        Visitor.counter Metric.complexity JavaScript.complexityTypes] :
          List (Visitor FileMemory Nat)), v.NeverMarks := by
    simp only [List.cons_append, List.nil_append, List.forall_mem_cons]
    exact ⟨Visitor.neverMarks_counter _ _, Visitor.neverMarks_lines _,
      Visitor.neverMarks_linesOfCode _, Visitor.neverMarks_counter _ _,
      Visitor.neverMarks_counter _ _, fun v hv => absurd hv List.not_mem_nil⟩
  obtain ⟨-, htaken, -⟩ := marks_lines_after hnew rfl rfl hothers
    [.file (.text "a" "other"), .file (.text "a" "other")]
  obtain ⟨text, root, tree, hcontent, hparse, htree, hlines⟩ :=
    htaken (.text "b" "first") 2 (by decide +kernel)
  cases hcontent
  exact ⟨_, _, hnew, by decide +kernel, by decide +kernel, root, tree, hparse, htree, hlines⟩

end Scanner
end SourceMetrics
