/-
# `LineSet` — a set of lines of a file

Lines are mostly met in the order of the text, so the set is kept with the
last line first: a line behind all others is added at the head.  What the
set holds is said by membership (`mem_insert`, `ext_mem`).
-/
namespace SourceMetrics

/-! ## Lines, the last first -/

namespace Descending

/-- Whether lines, the last first, hold a line. -/
def has (line : Nat) : List Nat → Bool
  | [] => false
  | l :: rest => if line < l then has line rest else l == line

/-- Puts a line among others, the last first, once. -/
def put (line : Nat) : List Nat → List Nat
  | [] => [line]
  | l :: rest =>
    if line < l then l :: put line rest
    else if line = l then l :: rest
    else line :: l :: rest

theorem mem_put {line x : Nat} {ls : List Nat} : x ∈ put line ls ↔ x = line ∨ x ∈ ls := by
  induction ls with
  | nil => simp [put]
  | cons l rest ih =>
    simp only [put]
    split
    · simp only [List.mem_cons, ih]
      exact or_left_comm
    · split
      next h => subst h; simp
      next => simp

theorem put_sorted {line : Nat} {ls : List Nat} (h : ls.Pairwise (· > ·)) :
    (put line ls).Pairwise (· > ·) := by
  induction ls with
  | nil => simp [put]
  | cons l rest ih =>
    have hl := List.pairwise_cons.mp h
    simp only [put]
    split
    next hlt =>
      refine List.pairwise_cons.mpr ⟨fun x hx => ?_, ih hl.2⟩
      rcases mem_put.mp hx with rfl | hx
      · exact hlt
      · exact hl.1 x hx
    next hle =>
      split
      · exact h
      next hne =>
        refine List.pairwise_cons.mpr ⟨fun x hx => ?_, h⟩
        rcases List.mem_cons.mp hx with rfl | hx
        · show x < line
          omega
        · have := hl.1 x hx
          show x < line
          omega

theorem has_iff {line : Nat} {ls : List Nat} (h : ls.Pairwise (· > ·)) :
    has line ls = true ↔ line ∈ ls := by
  induction ls with
  | nil => simp [has]
  | cons l rest ih =>
    have hl := List.pairwise_cons.mp h
    simp only [has, List.mem_cons]
    split
    next hlt =>
      rw [ih hl.2]
      exact ⟨Or.inr, fun e => e.resolve_left (Nat.ne_of_lt hlt)⟩
    next hle =>
      have absent : line ∉ rest := fun hx => hle (hl.1 line hx)
      simp only [beq_iff_eq, absent, or_false]
      exact eq_comm

/-- Sorted lines with the same members are the same. -/
theorem ext_mem : ∀ {a b : List Nat}, a.Pairwise (· > ·) → b.Pairwise (· > ·) →
    (∀ x, x ∈ a ↔ x ∈ b) → a = b
  | [], [], _, _, _ => rfl
  | [], y :: b, _, _, h => absurd ((h y).mpr (List.mem_cons_self ..)) List.not_mem_nil
  | x :: a, [], _, _, h => absurd ((h x).mp (List.mem_cons_self ..)) List.not_mem_nil
  | x :: a, y :: b, ha, hb, h => by
    have ha' := List.pairwise_cons.mp ha
    have hb' := List.pairwise_cons.mp hb
    have head : x = y := by
      rcases List.mem_cons.mp ((h x).mp (List.mem_cons_self ..)) with e | hx
      · exact e
      · rcases List.mem_cons.mp ((h y).mpr (List.mem_cons_self ..)) with e | hy
        · exact e.symm
        · exact absurd (ha'.1 y hy) (Nat.lt_asymm (hb'.1 x hx))
    subst head
    congr 1
    refine ext_mem ha'.2 hb'.2 fun z => ⟨fun hz => ?_, fun hz => ?_⟩
    · rcases List.mem_cons.mp ((h z).mp (List.mem_cons_of_mem _ hz)) with e | hz'
      · exact absurd (ha'.1 z hz) (e ▸ Nat.lt_irrefl z)
      · exact hz'
    · rcases List.mem_cons.mp ((h z).mpr (List.mem_cons_of_mem _ hz)) with e | hz'
      · exact absurd (hb'.1 z hz) (e ▸ Nat.lt_irrefl z)
      · exact hz'

end Descending

/-! ## Sets of lines -/

/-- A set of lines of a file. -/
structure LineSet where
  /-- The lines, the last first. -/
  descending : List Nat
  sorted : descending.Pairwise (· > ·)
deriving DecidableEq

namespace LineSet

/-- No lines. -/
def empty : LineSet := ⟨[], List.Pairwise.nil⟩

instance : Membership Nat LineSet := ⟨fun s line => line ∈ s.descending⟩

/-- Whether a line is in the set. -/
def contains (s : LineSet) (line : Nat) : Bool := Descending.has line s.descending

/-- The set with one more line. -/
def insert (s : LineSet) (line : Nat) : LineSet :=
  ⟨Descending.put line s.descending, Descending.put_sorted s.sorted⟩

/-- The lines in their order. -/
def toList (s : LineSet) : List Nat := s.descending.reverse

theorem not_mem_empty (line : Nat) : line ∉ empty := List.not_mem_nil

theorem mem_insert {s : LineSet} {line x : Nat} : x ∈ s.insert line ↔ x = line ∨ x ∈ s :=
  Descending.mem_put

theorem contains_iff {s : LineSet} {line : Nat} : s.contains line = true ↔ line ∈ s :=
  Descending.has_iff s.sorted

theorem mem_toList {s : LineSet} {line : Nat} : line ∈ s.toList ↔ line ∈ s := List.mem_reverse

theorem ext_mem {a b : LineSet} (h : ∀ line, line ∈ a ↔ line ∈ b) : a = b := by
  have := Descending.ext_mem a.sorted b.sorted h
  cases a
  cases b
  subst this
  rfl

end LineSet
end SourceMetrics
