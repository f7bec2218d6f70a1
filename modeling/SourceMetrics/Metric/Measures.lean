/-
# `Measures` — the values recorded on one unit

A metric is known by its name.  The measures of a unit give some metrics a
value, in the order of their names; to read a metric that was never
recorded gives zero, and `value?` tells the two apart.

Two measures with the same values are equal (`Measures.ext_value`), since
the entries are sorted.
-/
import SourceMetrics.Decimal.Rounding
import SourceMetrics.Metric.Amount

namespace SourceMetrics

/-- The name of a metric. -/
abbrev Metric := String

namespace Metric

def files : Metric := "files"
def lines : Metric := "lines"
def linesOfCode : Metric := "lines_of_code"
def commentLines : Metric := "comment_lines"
def commentBlankLines : Metric := "comment_blank_lines"
def functions : Metric := "functions"
def statements : Metric := "statements"
def complexity : Metric := "complexity"

end Metric

/-! ## Entries sorted by name -/

namespace Entries

variable {α : Type}

/-- The value the entries give a metric. -/
def find (m : Metric) : List (Metric × α) → Option α
  | [] => none
  | (k, y) :: rest => if k = m then some y else find m rest

/-- Gives a metric a value, in place of the one it had. -/
def put (m : Metric) (x : α) : List (Metric × α) → List (Metric × α)
  | [] => [(m, x)]
  | (k, y) :: rest =>
    if m < k then (m, x) :: (k, y) :: rest
    else if m = k then (m, x) :: rest
    else (k, y) :: put m x rest

theorem mem_put {m : Metric} {x : α} {e : Metric × α} {l : List (Metric × α)} :
    e ∈ put m x l → e = (m, x) ∨ e ∈ l := by
  induction l with
  | nil => simp [put]
  | cons hd tl ih =>
    simp only [put]
    split
    · simp
    · split
      · simp only [List.mem_cons]; rintro (h | h) <;> simp [h]
      · simp only [List.mem_cons]
        rintro (h | h)
        · simp [h]
        · rcases ih h with h | h <;> simp [h]

theorem put_sorted {m : Metric} {x : α} {l : List (Metric × α)}
    (h : l.Pairwise (fun a b => a.1 < b.1)) :
    (put m x l).Pairwise (fun a b => a.1 < b.1) := by
  induction l with
  | nil => simp [put]
  | cons hd tl ih =>
    obtain ⟨k, y⟩ := hd
    simp only [put]
    rw [List.pairwise_cons] at h
    split
    next hlt =>
      refine List.pairwise_cons.mpr ⟨?_, List.pairwise_cons.mpr h⟩
      intro e he
      rcases List.mem_cons.mp he with rfl | he
      · exact hlt
      · exact String.lt_trans hlt (h.1 e he)
    next hlt =>
      split
      next heq => subst heq; exact List.pairwise_cons.mpr h
      next hne =>
        refine List.pairwise_cons.mpr ⟨?_, ih h.2⟩
        intro e he
        rcases mem_put he with rfl | he
        · rcases Std.lt_trichotomy m k with h' | h' | h'
          · exact absurd h' hlt
          · exact absurd h' hne
          · exact h'
        · exact h.1 e he

theorem find_put (m k : Metric) (x : α) (l : List (Metric × α)) :
    find k (put m x l) = if m = k then some x else find k l := by
  induction l with
  | nil => simp [put, find]
  | cons hd tl ih =>
    obtain ⟨k', y⟩ := hd
    simp only [put]
    split
    · simp [find]
    · split
      next h => subst h; by_cases hk : m = k <;> simp [find, hk]
      next h =>
        by_cases hk : k' = k
        · have : m ≠ k := fun e => h (e.trans hk.symm)
          simp [find, hk, this]
        · simp [find, hk, ih]

theorem find_eq_none_of_lt {m : Metric} {l : List (Metric × α)}
    (h : ∀ e ∈ l, m < e.1) : find m l = none := by
  induction l with
  | nil => rfl
  | cons hd tl ih =>
    have h1 : m < hd.1 := h hd (List.mem_cons_self ..)
    have h2 : hd.1 ≠ m := fun e => String.lt_irrefl m (e ▸ h1)
    simp [find, h2, ih (fun e he => h e (List.mem_cons_of_mem _ he))]

/-- Sorted entries that give every metric the same value are the same. -/
theorem ext_find : ∀ {l₁ l₂ : List (Metric × α)},
    l₁.Pairwise (fun a b => a.1 < b.1) → l₂.Pairwise (fun a b => a.1 < b.1) →
    (∀ m, find m l₁ = find m l₂) → l₁ = l₂
  | [], [], _, _, _ => rfl
  | [], e :: l₂, _, _, h => by simpa [find] using h e.1
  | e :: l₁, [], _, _, h => by simpa [find] using (h e.1).symm
  | (k₁, y₁) :: l₁, (k₂, y₂) :: l₂, h₁, h₂, h => by
    rw [List.pairwise_cons] at h₁ h₂
    have key : k₁ = k₂ := by
      rcases Std.lt_trichotomy k₁ k₂ with hlt | heq | hlt
      · have hn : find k₁ ((k₂, y₂) :: l₂) = none := by
          apply find_eq_none_of_lt
          intro e he
          rcases List.mem_cons.mp he with rfl | he
          · exact hlt
          · exact String.lt_trans hlt (h₂.1 e he)
        have := h k₁
        rw [hn] at this
        simp [find] at this
      · exact heq
      · have hn : find k₂ ((k₁, y₁) :: l₁) = none := by
          apply find_eq_none_of_lt
          intro e he
          rcases List.mem_cons.mp he with rfl | he
          · exact hlt
          · exact String.lt_trans hlt (h₁.1 e he)
        have := h k₂
        rw [hn] at this
        simp [find] at this
    subst key
    have val : y₁ = y₂ := by simpa [find] using h k₁
    subst val
    congr 1
    apply ext_find h₁.2 h₂.2
    intro m
    by_cases hm : k₁ = m
    · subst hm
      rw [find_eq_none_of_lt h₁.1, find_eq_none_of_lt h₂.1]
    · simpa [find, hm] using h m

end Entries

/-! ## Measures -/

/-- The metrics that were recorded, each with its value, sorted by name. -/
structure Measures (α : Type) where
  entries : List (Metric × α)
  sorted : entries.Pairwise (fun a b => a.1 < b.1)

namespace Measures

variable {α : Type}

/-- Nothing recorded. -/
def empty : Measures α := ⟨[], List.Pairwise.nil⟩

instance : Inhabited (Measures α) := ⟨empty⟩

/-- The recorded value of a metric. -/
def value? (ms : Measures α) (m : Metric) : Option α := Entries.find m ms.entries

/-- The value of a metric, zero where none was recorded. -/
def get [Amount α] (ms : Measures α) (m : Metric) : α := (ms.value? m).getD 0

/-- Records a value in place of the one before. -/
def set (ms : Measures α) (m : Metric) (x : α) : Measures α :=
  ⟨Entries.put m x ms.entries, Entries.put_sorted ms.sorted⟩

/-- Adds to a metric. -/
def add [Amount α] (ms : Measures α) (m : Metric) (x : α) : Measures α :=
  ms.set m (ms.get m + x)

def contains (ms : Measures α) (m : Metric) : Bool := (ms.value? m).isSome

def isEmpty (ms : Measures α) : Bool := ms.entries.isEmpty

/-- Records the values in order, a later one in place of an earlier. -/
def ofList (l : List (Metric × α)) : Measures α :=
  l.foldl (fun ms e => ms.set e.1 e.2) empty

/-- Whether both record the same metrics with values that compare equal. -/
def same [BEq α] (a b : Measures α) : Bool := a.entries == b.entries

@[simp] theorem value?_empty (m : Metric) : (empty : Measures α).value? m = none := rfl

theorem value?_set (ms : Measures α) (m k : Metric) (x : α) :
    (ms.set m x).value? k = if m = k then some x else ms.value? k :=
  Entries.find_put m k x ms.entries

theorem value?_add [Amount α] (ms : Measures α) (m k : Metric) (x : α) :
    (ms.add m x).value? k = if m = k then some (ms.get m + x) else ms.value? k :=
  value?_set ms m k _

/-- Measures that give every metric the same value are equal. -/
theorem ext_value {a b : Measures α} (h : ∀ m, a.value? m = b.value? m) : a = b := by
  have : a.entries = b.entries := Entries.ext_find a.sorted b.sorted h
  cases a; cases b; cases this; rfl

/-- The value of a counting metric as an integer: a half is rounded away
from zero, and what is out of the range of 64 bits goes to its end. -/
def count (ms : Measures Float) (m : Metric) : Int := Decimal.nearestInt (ms.get m)

end Measures
end SourceMetrics
