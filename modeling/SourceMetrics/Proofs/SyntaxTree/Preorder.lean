/-
# Every node once, from a stack of pending subtrees

`tokens` and `nodeCount` go through a tree with a stack of subtrees that are
still to be read.  A turn takes the next one off, reads its root and puts the
root's children onto the rest.  The stack may grow at any turn, but the nodes
in it become fewer by the one that is read:

    stack        n :: rest                   children of n, and rest
    total size   1 + size below n + rest     size below n + rest

So a loop of this kind (`Loop`) stops after as many turns as the pending
subtrees have nodes (`turns_sizeList`), and has then read each of them once
(`order_perm`).  The order depends on where the children are put.  `tokens`
puts them before the rest, from left to right, and so reads in preorder
(`order_eq_preorderList`); a count comes out the same in any order.

Equal nodes may stand at different places of a tree.  What tells them apart is
the path to each, the child positions that lead to it from the root, and
preorder is the lexicographic order of the paths:

    []  <  [0]  <  [0, 0]  <  [0, 1]  <  [1]
-/
import SourceMetrics.SyntaxTree.Node

namespace SourceMetrics
namespace Node

/-! ## Preorder -/

theorem preorder_eq (n : Node) : n.preorder = n :: preorderList n.children := by
  cases n
  rfl

theorem preorderList_eq_flatMap (ns : List Node) : preorderList ns = ns.flatMap preorder := by
  induction ns with
  | nil => rfl
  | cons n ns ih => rw [preorderList, ih, List.flatMap_cons]

/-- To read the root of the next subtree and to put its children in front of
the rest keeps the order of the nodes. -/
theorem preorderList_cons (n : Node) (rest : List Node) :
    preorderList (n :: rest) = n :: preorderList (n.children ++ rest) := by
  rw [preorderList, preorder_eq, List.cons_append, preorderList_eq_flatMap (n.children ++ rest),
    List.flatMap_append, ← preorderList_eq_flatMap, ← preorderList_eq_flatMap]

theorem preorderList_perm {ms ns : List Node} (h : ms.Perm ns) :
    (preorderList ms).Perm (preorderList ns) := by
  rw [preorderList_eq_flatMap, preorderList_eq_flatMap]
  exact h.flatMap_right preorder

mutual
theorem length_preorder : ∀ n : Node, n.preorder.length = n.size
  | ⟨_, _, _, _, children⟩ => by
      rw [preorder, List.length_cons, length_preorderList children, size, Nat.add_comm]
theorem length_preorderList : ∀ ns : List Node, (preorderList ns).length = sizeList ns
  | [] => rfl
  | n :: ns => by
      rw [preorderList, List.length_append, length_preorder n, length_preorderList ns, sizeList]
end

theorem sizeList_perm {ms ns : List Node} (h : ms.Perm ns) : sizeList ms = sizeList ns := by
  rw [← length_preorderList, ← length_preorderList]
  exact (preorderList_perm h).length_eq

/-! ## Paths -/

mutual
/-- The nodes of the tree in preorder, each with the path to it. -/
def withPaths : Node → List (List Nat × Node)
  | ⟨kind, span, field, token, children⟩ =>
    ([], ⟨kind, span, field, token, children⟩) :: withPathsFrom 0 children

/-- The nodes of trees side by side in preorder, each with the path to it; the
first tree has the position `i` among all children. -/
def withPathsFrom (i : Nat) : List Node → List (List Nat × Node)
  | [] => []
  | n :: ns => n.withPaths.map (fun c => (i :: c.1, c.2)) ++ withPathsFrom (i + 1) ns
end

theorem withPaths_eq (n : Node) : n.withPaths = ([], n) :: withPathsFrom 0 n.children := by
  cases n
  rfl

mutual
theorem map_snd_withPaths : ∀ n : Node, n.withPaths.map Prod.snd = n.preorder
  | ⟨_, _, _, _, children⟩ => by
      rw [withPaths, List.map_cons, map_snd_withPathsFrom 0 children, preorder]
theorem map_snd_withPathsFrom (i : Nat) :
    ∀ ns : List Node, (withPathsFrom i ns).map Prod.snd = preorderList ns
  | [] => rfl
  | n :: ns => by
      rw [withPathsFrom, List.map_append, List.map_map, map_snd_withPathsFrom (i + 1) ns,
        preorderList, ← map_snd_withPaths n]
      rfl
end

theorem mem_withPathsFrom_iff {ns : List Node} {i : Nat} {m : Node} {path : List Nat} :
    (path, m) ∈ withPathsFrom i ns ↔
      ∃ j below c, path = (i + j) :: below ∧ ns[j]? = some c ∧ (below, m) ∈ c.withPaths := by
  induction ns generalizing i with
  | nil =>
      constructor
      · exact fun h => absurd h List.not_mem_nil
      · rintro ⟨j, below, c, -, hc, -⟩
        cases hc
  | cons n ns ih =>
      rw [withPathsFrom, List.mem_append, ih]
      constructor
      · rintro (h | ⟨j, below, c, hpath, hc, hm⟩)
        · obtain ⟨⟨below, m'⟩, hm, hpair⟩ := List.mem_map.mp h
          cases hpair
          exact ⟨0, below, n, rfl, rfl, hm⟩
        · exact ⟨j + 1, below, c, by rw [hpath, Nat.add_assoc, Nat.add_comm 1], hc, hm⟩
      · rintro ⟨j, below, c, hpath, hc, hm⟩
        match j with
        | 0 =>
            cases hc
            exact .inl (List.mem_map.mpr ⟨(below, m), hm, by rw [hpath, Nat.add_zero]⟩)
        | j + 1 =>
            exact .inr ⟨j, below, c, by rw [hpath, Nat.add_assoc, Nat.add_comm 1], hc, hm⟩

/-- Each node is listed with the path that leads to it. -/
theorem mem_withPaths_iff {n m : Node} {path : List Nat} :
    (path, m) ∈ n.withPaths ↔ n.descend? path = some m := by
  induction path generalizing n with
  | nil =>
      rw [withPaths_eq, List.mem_cons, mem_withPathsFrom_iff, descend?]
      constructor
      · rintro (h | ⟨j, below, c, hpath, -, -⟩)
        · cases h
          rfl
        · cases hpath
      · intro h
        cases h
        exact .inl rfl
  | cons i path ih =>
      rw [withPaths_eq, List.mem_cons, mem_withPathsFrom_iff, descend?, Option.bind_eq_some_iff]
      constructor
      · rintro (h | ⟨j, below, c, hpath, hc, hm⟩)
        · cases h
        · rw [Nat.zero_add] at hpath
          cases hpath
          exact ⟨c, hc, ih.mp hm⟩
      · rintro ⟨c, hc, hm⟩
        exact .inr ⟨i, path, c, by rw [Nat.zero_add], hc, ih.mpr hm⟩

mutual
/-- The paths come in lexicographic order, so none comes twice. -/
theorem pairwise_withPaths : ∀ n : Node, n.withPaths.Pairwise fun a b => a.1 < b.1
  | ⟨_, _, _, _, children⟩ => by
      refine .cons ?_ (pairwise_withPathsFrom 0 children)
      rintro ⟨path, m⟩ hm
      obtain ⟨j, below, -, rfl, -, -⟩ := mem_withPathsFrom_iff.mp hm
      exact List.nil_lt_cons _ _
theorem pairwise_withPathsFrom (i : Nat) :
    ∀ ns : List Node, (withPathsFrom i ns).Pairwise fun a b => a.1 < b.1
  | [] => .nil
  | n :: ns => by
      refine List.pairwise_append.mpr ⟨?_, pairwise_withPathsFrom (i + 1) ns, ?_⟩
      · refine List.pairwise_map.mpr ((pairwise_withPaths n).imp fun hlt => ?_)
        exact List.cons_lt_cons_iff.mpr (.inr ⟨rfl, hlt⟩)
      · -- Paths into a later tree start with a greater position.
        intro a ha b hb
        obtain ⟨c, -, rfl⟩ := List.mem_map.mp ha
        obtain ⟨j, below, -, hpath, -, -⟩ := mem_withPathsFrom_iff.mp hb
        rw [hpath]
        exact List.cons_lt_cons_iff.mpr (.inl (by omega))
end

/-- The nodes of a tree that satisfy `p`, each once and in preorder.  They
stand at the given paths, which increase and are just those that lead to such
a node. -/
structure Lists (root : Node) (p : Node → Bool) (paths : List (List Nat)) (nodes : List Node) :
    Prop where
  increasing : paths.Pairwise (· < ·)
  mem_iff : ∀ path, path ∈ paths ↔ ∃ n, root.descend? path = some n ∧ p n = true
  nodes : paths.map root.descend? = nodes.map some

/-- Those of the nodes in preorder that satisfy `p` are all there are, each once. -/
theorem exists_lists (root : Node) (p : Node → Bool) :
    ∃ paths, root.Lists p paths (root.preorder.filter p) := by
  refine ⟨(root.withPaths.filter (p ·.2)).map Prod.fst, ?_, ?_, ?_⟩
  · exact List.pairwise_map.mpr ((pairwise_withPaths root).filter _)
  · intro path
    rw [List.mem_map]
    constructor
    · rintro ⟨⟨path', n⟩, hn, rfl⟩
      obtain ⟨hmem, hp⟩ := List.mem_filter.mp hn
      exact ⟨n, mem_withPaths_iff.mp hmem, hp⟩
    · rintro ⟨n, hn, hp⟩
      exact ⟨(path, n), List.mem_filter.mpr ⟨mem_withPaths_iff.mpr hn, hp⟩, rfl⟩
  · rw [← map_snd_withPaths, List.filter_map, List.map_map, List.map_map]
    refine List.map_congr_left fun c hc => ?_
    exact mem_withPaths_iff.mp (List.mem_filter.mp hc).1

/-! ## Loops over pending subtrees -/

/-- A loop over pending subtrees.  Until none is left, it takes the next one
off, notes its root and puts the root's children onto the rest: in any order,
but all of them and nothing else. -/
structure Loop (σ : Type) where
  push : List Node → List Node → List Node
  note : Node → σ → σ
  push_perm : ∀ children rest, (push children rest).Perm (children ++ rest)

namespace Loop

variable {σ β : Type} (l : Loop σ)

theorem sizeList_push (children rest : List Node) :
    sizeList (l.push children rest) = sizeList children + sizeList rest := by
  rw [sizeList_perm (l.push_perm children rest), sizeList_append]

/-- A turn makes the pending subtrees smaller by the node that it reads. -/
theorem sizeList_turn (n : Node) (rest : List Node) :
    sizeList (l.push n.children rest) + 1 = sizeList (n :: rest) := by
  rw [sizeList_push, sizeList, size_eq]
  omega

/-- The nodes that the loop reads, one at each turn. -/
def order (stack : List Node) : List Node :=
  match stack with
  | [] => []
  | n :: rest => n :: order (l.push n.children rest)
termination_by sizeList stack
decreasing_by exact Nat.lt_of_succ_le (Nat.le_of_eq (l.sizeList_turn n rest))

/-- The loop reads each node of the pending subtrees once. -/
theorem order_perm (stack : List Node) : (l.order stack).Perm (preorderList stack) := by
  fun_induction l.order stack with
  | case1 => exact .nil
  | case2 n rest ih =>
      rw [preorderList_cons]
      exact .cons n (ih.trans (preorderList_perm (l.push_perm n.children rest)))

theorem length_order (stack : List Node) : (l.order stack).length = sizeList stack := by
  rw [(l.order_perm stack).length_eq, length_preorderList]

/-- A loop that puts children in front of the rest reads in preorder. -/
theorem order_eq_preorderList (hpush : l.push = (· ++ ·)) (stack : List Node) :
    l.order stack = preorderList stack := by
  fun_induction l.order stack with
  | case1 => rfl
  | case2 n rest ih => rw [ih, hpush, preorderList_cons]

/-- What one turn makes of the pending subtrees and of what is noted. -/
def turn : List Node × σ → Option (List Node × σ)
  | ([], _) => none
  | (n :: rest, s) => some (l.push n.children rest, l.note n s)

/-- What `k` turns make of them, where there are as many. -/
def turns : Nat → List Node × σ → Option (List Node × σ)
  | 0, state => some state
  | k + 1, state => (l.turn state).bind (turns k)

/-- What the loop has noted in the end. -/
def result (stack : List Node) (s : σ) : σ := (l.order stack).foldl (fun s n => l.note n s) s

theorem sizeList_of_turn {a b : List Node × σ} (h : l.turn a = some b) :
    sizeList b.1 + 1 = sizeList a.1 := by
  match a with
  | ([], s) => cases h
  | (n :: rest, s) =>
      cases h
      exact l.sizeList_turn n rest

/-- As many turns as there are nodes leave no subtree. -/
theorem turns_sizeList (stack : List Node) (s : σ) :
    l.turns (sizeList stack) (stack, s) = some ([], l.result stack s) := by
  rw [result, ← l.length_order stack]
  fun_induction l.order stack generalizing s with
  | case1 => rfl
  | case2 n rest ih =>
      rw [List.length_cons, turns, turn, Option.bind_some, ih, List.foldl_cons]

/-- A function says what the loop comes to: no turn changes that, and in the
end it is read off what is noted. -/
structure Computes (read : σ → β) (f : List Node → σ → β) : Prop where
  stopped : ∀ s, f [] s = read s
  turned : ∀ a b, l.turn a = some b → f b.1 b.2 = f a.1 a.2

/-- The loop comes to an end.  Each turn lowers the total size of the pending
subtrees by one and leaves alone what the loop comes to; after as many turns as
that size no subtree is left, and the answer is read off what is noted. -/
structure Stops (read : σ → β) (f : List Node → σ → β) (stack : List Node) (s : σ) : Prop where
  countdown : ∀ k b, l.turns k (stack, s) = some b →
    sizeList b.1 + k = sizeList stack ∧ f b.1 b.2 = f stack s
  last : l.turns (sizeList stack) (stack, s) = some ([], l.result stack s)
  answer : f stack s = read (l.result stack s)

variable {l} {read : σ → β} {f : List Node → σ → β}

theorem Computes.countdown (h : l.Computes read f) (k : Nat) {a b : List Node × σ}
    (hturns : l.turns k a = some b) :
    sizeList b.1 + k = sizeList a.1 ∧ f b.1 b.2 = f a.1 a.2 := by
  induction k generalizing a with
  | zero =>
      cases hturns
      exact ⟨rfl, rfl⟩
  | succ k ih =>
      obtain ⟨next, hturn, hrest⟩ := Option.bind_eq_some_iff.mp hturns
      obtain ⟨hsize, hsame⟩ := ih hrest
      have hnext := l.sizeList_of_turn hturn
      exact ⟨by omega, hsame.trans (h.turned a next hturn)⟩

theorem Computes.stops (h : l.Computes read f) (stack : List Node) (s : σ) :
    l.Stops read f stack s := by
  have hlast := l.turns_sizeList stack s
  refine ⟨fun k b hturns => h.countdown k hturns, hlast, ?_⟩
  rw [← (h.countdown _ hlast).2, h.stopped]

end Loop

/-! ## The tokens and the number of nodes -/

/-- The loop of `tokens`. -/
def tokenLoop : Loop (List Node) where
  push children rest := children ++ rest
  note n found := if n.token.isSome then n :: found else found
  push_perm _ _ := .refl _

/-- The loop of `nodeCount`. -/
def countLoop : Loop Nat where
  push children rest := children.reverseAux rest
  note _ count := count + 1
  push_perm children rest := by
    rw [List.reverseAux_eq]
    exact children.reverse_perm.append_right rest

theorem computes_tokensLoop : tokenLoop.Computes List.reverse tokensLoop where
  stopped s := by rw [tokensLoop]
  turned
    | ([], _), _, h => by cases h
    | (n :: rest, found), _, h => by
        cases h
        rw [tokensLoop]
        rfl

theorem computes_nodeCountLoop : countLoop.Computes id nodeCountLoop where
  stopped s := by
    rw [nodeCountLoop]
    rfl
  turned
    | ([], _), _, h => by cases h
    | (n :: rest, count), _, h => by
        cases h
        rw [nodeCountLoop]
        rfl

theorem reverse_foldl_note (ns found : List Node) :
    (ns.foldl (fun found n => tokenLoop.note n found) found).reverse =
      found.reverse ++ ns.filter (·.token.isSome) := by
  induction ns generalizing found with
  | nil => exact (List.append_nil _).symm
  | cons n ns ih =>
      rw [List.foldl_cons, ih, List.filter_cons]
      show (if n.token.isSome then n :: found else found).reverse ++ _ = _
      split
      · rw [List.reverse_cons, List.append_assoc, List.singleton_append]
      · rfl

theorem foldl_count (ns : List Node) (count : Nat) :
    ns.foldl (fun count n => countLoop.note n count) count = count + ns.length := by
  induction ns generalizing count with
  | nil => rfl
  | cons n ns ih =>
      rw [List.foldl_cons, ih, List.length_cons]
      exact Nat.add_right_comm count 1 ns.length

/-- From any stack on, the loop adds the nodes of its subtrees that carry a
token, in preorder. -/
theorem tokensLoop_eq (stack found : List Node) :
    tokensLoop stack found = found.reverse ++ (preorderList stack).filter (·.token.isSome) := by
  rw [(computes_tokensLoop.stops stack found).answer, Loop.result,
    tokenLoop.order_eq_preorderList rfl, reverse_foldl_note]

/-- From any stack on, the loop adds the number of nodes of its subtrees. -/
theorem nodeCountLoop_eq (stack : List Node) (count : Nat) :
    nodeCountLoop stack count = count + sizeList stack := by
  rw [(computes_nodeCountLoop.stops stack count).answer, Loop.result, foldl_count,
    Loop.length_order]
  rfl

theorem tokens_eq_leaves (n : Node) : n.tokens = n.leaves := by
  rw [tokens, tokensLoop_eq, List.reverse_nil, List.nil_append, preorderList, preorderList,
    List.append_nil, leaves]

theorem nodeCount_eq_size (n : Node) : n.nodeCount = n.size := by
  rw [nodeCount, nodeCountLoop_eq, sizeList, sizeList]
  omega

/-- The loops with a stack say what the recursion on a tree says, however deep
and wide it is.  `tokens` lists just the nodes that carry a token, each once and
in preorder, whether they have children or not, and `nodeCount` is the number of
all nodes.  Both loops come to an end from every stack, and the total size of
the subtrees on it counts their turns down to it. -/
theorem loops_read_each_node_once (root : Node) :
    root.tokens = root.leaves ∧
    root.nodeCount = root.size ∧
    (∃ paths, root.Lists (·.token.isSome) paths root.tokens) ∧
    (∃ paths, root.Lists (fun _ => true) paths root.preorder ∧ root.nodeCount = paths.length) ∧
    (∀ stack found, tokenLoop.Stops List.reverse tokensLoop stack found) ∧
    (∀ stack count, countLoop.Stops id nodeCountLoop stack count) := by
  have htokens := tokens_eq_leaves root
  have hcount := nodeCount_eq_size root
  refine ⟨htokens, hcount, ?_, ?_, computes_tokensLoop.stops, computes_nodeCountLoop.stops⟩
  · rw [htokens]
    exact exists_lists root (·.token.isSome)
  · obtain ⟨paths, hpaths⟩ := exists_lists root fun _ => true
    rw [List.filter_eq_self.mpr fun _ _ => rfl] at hpaths
    refine ⟨paths, hpaths, ?_⟩
    calc root.nodeCount
        = root.preorder.length := hcount.trans (length_preorder root).symm
      _ = paths.length := by rw [← List.length_map (f := some), ← hpaths.nodes, List.length_map]

/-- A node with a token counts, though it has children. -/
example :
    let word : Node := ⟨"word", ⟨1, 2, 1, 3⟩, none, some ⟨"a", .code⟩, []⟩
    let pair : Node := ⟨"pair", ⟨1, 1, 1, 3⟩, none, some ⟨"aa", .code⟩, [word, word]⟩
    (Node.branch "text" ⟨1, 1, 1, 4⟩ [pair, word]).tokens.map Node.tokenText =
      [some "aa", some "a", some "a", some "a"] := by
  cbv

end Node
end SourceMetrics
