/-
# The order of positions in a text

Points and spans are compared by line and then by column.  What makes that an
order of the text is that it is the order of byte offsets: a step of one byte
goes on along the row or down to the start of the next (`ofOffset_succ`), so
the point of a later offset is later, up to the end of the text
(`ofOffset_le_ofOffset_iff`).

A span covers another that starts no earlier and ends no later
(`Span.Covers`).
-/
import Mathlib.Data.Prod.Lex
import SourceMetrics.SyntaxTree.Span
import SourceMetrics.Proofs.Text.Lines

namespace SourceMetrics

/-! ## Points -/

namespace Point

/-- The row before the column. -/
def key (p : Point) : ℕ ×ₗ ℕ := toLex (p.row, p.column)

theorem key_injective : Function.Injective key := by
  rintro ⟨row, column⟩ ⟨row', column'⟩ h
  obtain ⟨rfl, rfl⟩ := Prod.mk.inj (toLex_inj.mp h)
  rfl

instance : LinearOrder Point := LinearOrder.lift' key key_injective

theorem le_iff {p q : Point} : p ≤ q ↔ p.row < q.row ∨ p.row = q.row ∧ p.column ≤ q.column :=
  Prod.Lex.toLex_le_toLex

theorem lt_iff {p q : Point} : p < q ↔ p.row < q.row ∨ p.row = q.row ∧ p.column < q.column :=
  Prod.Lex.toLex_lt_toLex

open Text

variable {bytes : List UInt8}

/-- One byte on is the start of the next row, if the byte is a line feed, and
the next column of the same row otherwise. -/
theorem ofOffset_succ {offset : Nat} (h : offset < bytes.length) :
    ofOffset bytes (offset + 1) =
      if bytes[offset] = lineFeed then ⟨(ofOffset bytes offset).row + 1, 0⟩
      else ⟨(ofOffset bytes offset).row, (ofOffset bytes offset).column + 1⟩ := by
  simp only [ofOffset, List.take_succ_eq_append_getElem h, List.count_append, List.reverse_append,
    List.reverse_singleton, List.singleton_append, List.takeWhile_cons, List.count_singleton]
  by_cases hfeed : bytes[offset] = lineFeed
  · rw [if_pos hfeed, hfeed]
    rfl
  · rw [if_neg hfeed, if_pos (decide_eq_true hfeed), beq_false_of_ne hfeed, List.length_cons]
    rfl

theorem ofOffset_lt_succ {offset : Nat} (h : offset < bytes.length) :
    ofOffset bytes offset < ofOffset bytes (offset + 1) := by
  rw [ofOffset_succ h, lt_iff]
  split
  · exact .inl (Nat.lt_succ_self _)
  · exact .inr ⟨rfl, Nat.lt_succ_self _⟩

/-- Points are in the order of their byte offsets, up to the end of the text. -/
theorem ofOffset_lt_ofOffset {a b : Nat} (hab : a < b) (hb : b ≤ bytes.length) :
    ofOffset bytes a < ofOffset bytes b := by
  induction b, hab using Nat.le_induction with
  | base => exact ofOffset_lt_succ hb
  | succ b hab ih => exact (ih (Nat.le_of_succ_le hb)).trans (ofOffset_lt_succ hb)

theorem ofOffset_le_ofOffset_iff {a b : Nat} (ha : a ≤ bytes.length) (hb : b ≤ bytes.length) :
    ofOffset bytes a ≤ ofOffset bytes b ↔ a ≤ b := by
  constructor
  · intro hle
    refine Nat.le_of_not_lt fun hlt => ?_
    exact absurd hle (not_le_of_gt (ofOffset_lt_ofOffset hlt ha))
  · intro hle
    rcases Nat.lt_or_eq_of_le hle with hlt | rfl
    · exact (ofOffset_lt_ofOffset hlt hb).le
    · exact le_refl _

/-- The point of an offset on a line that follows a line feed, or nothing. -/
theorem ofOffset_append {front line : List UInt8} (rest : List UInt8)
    (hfront : front = [] ∨ ∃ init, front = init ++ [lineFeed]) (hline : lineFeed ∉ line)
    {column : Nat} (hcolumn : column ≤ line.length) :
    ofOffset (front ++ (line ++ rest)) (front.length + column) =
      ⟨front.count lineFeed, column⟩ := by
  have htake : (front ++ (line ++ rest)).take (front.length + column) =
      front ++ line.take column := by
    rw [List.take_length_add_append, List.take_append_of_le_length hcolumn]
  have hplain : lineFeed ∉ line.take column := fun hmem => hline (List.mem_of_mem_take hmem)
  have hstop : front.reverse.takeWhile (· ≠ lineFeed) = [] := by
    rcases hfront with rfl | ⟨init, rfl⟩
    · rfl
    · rw [List.reverse_append]
      rfl
  rw [ofOffset, htake, List.count_append, List.count_eq_zero_of_not_mem hplain, List.reverse_append,
    List.takeWhile_append_of_pos, hstop, List.append_nil, List.length_reverse,
    List.length_take_of_le hcolumn]
  · rfl
  · intro b hb
    exact decide_eq_true fun heq => hplain (heq ▸ List.mem_reverse.mp hb)

end Point

/-! ## Spans -/

namespace Span

/-- The other span starts no earlier and ends no later, by line and then by
column. -/
def Covers (s t : Span) : Prop :=
  toLex (s.startLine, s.startCol) ≤ toLex (t.startLine, t.startCol) ∧
    toLex (t.endLine, t.endCol) ≤ toLex (s.endLine, s.endCol)

instance (s t : Span) : Decidable (s.Covers t) := inferInstanceAs (Decidable (_ ∧ _))

end Span
end SourceMetrics
