/-
# The first key that is free

The keys tried for a unit stand in a sequence that never ends, and each is
known by its place in it:

    place        0     1            2              3
    candidate    key   key:column   key:column#2   key:column#3   ...

No key comes twice (`candidate_injective`): the first two are shorter than all
that follow, and different numbers are written differently.  So the keys that
are taken, whatever they are, leave one candidate free among one more than
there are of them (`exists_candidate_not_mem`).  The search stops at the first
such candidate (`freeKey_eq_candidate`), and the number in it, if there is one,
is at most the number of keys taken.
-/
import Mathlib.Data.List.Nodup
import Mathlib.Data.List.Perm.Subperm
import Mathlib.Data.Nat.Find
import Mathlib.Order.Monotone.Defs
import SourceMetrics.Scan.Traversal

namespace SourceMetrics
namespace OpenUnit

/-! ## Candidates -/

/-- The candidate for a key at a place of the sequence. -/
def candidate (key : String) (column : Nat) : Nat → String
  | 0 => key
  | 1 => withColumn key column
  | n + 2 => numbered key column (n + 2)

/-- A key is shorter than what a mark and a number make of it. -/
theorem length_lt_marked (key mark : String) (hmark : 0 < mark.length) (n : Nat) :
    key.length < (key ++ mark ++ toString n).length := by
  rw [String.length_append, String.length_append]
  omega

theorem length_lt_withColumn (key : String) (column : Nat) :
    key.length < (withColumn key column).length :=
  length_lt_marked key ":" (by decide) column

theorem length_withColumn_lt (key : String) (column n : Nat) :
    (withColumn key column).length < (numbered key column n).length :=
  length_lt_marked (withColumn key column) "#" (by decide) n

/-- Different numbers make different keys. -/
theorem numbered_injective (key : String) (column : Nat) :
    Function.Injective (numbered key column) := by
  intro m n h
  have hlist := congrArg String.toList h
  simp only [numbered, String.toList_append] at hlist
  have hdigits := List.append_cancel_left hlist
  have hnumber := congrArg (Nat.ofDigitChars 10 · 0) hdigits
  simpa [Nat.toString_eq_ofList_toDigits] using hnumber

theorem candidate_ne_of_lt (key : String) (column : Nat) :
    ∀ i j, i < j → candidate key column i ≠ candidate key column j
  | 0, 1, _, h => (length_lt_withColumn key column).ne (congrArg String.length h)
  | 0, n + 2, _, h =>
      ((length_lt_withColumn key column).trans (length_withColumn_lt key column (n + 2))).ne
        (congrArg String.length h)
  | 1, n + 2, _, h => (length_withColumn_lt key column (n + 2)).ne (congrArg String.length h)
  | _ + 2, _ + 2, hlt, h => hlt.ne (numbered_injective key column h)

/-- No candidate comes twice. -/
theorem candidate_injective (key : String) (column : Nat) :
    Function.Injective (candidate key column) :=
  .of_lt_imp_ne (candidate_ne_of_lt key column)

/-! ## The search -/

section
variable (taken : List String) (key : String) (column : Nat)

/-- Of one candidate more than there are keys taken, one is free. -/
theorem exists_candidate_not_mem :
    ∃ i ≤ taken.length, candidate key column i ∉ taken := by
  by_contra hnone
  have hsubset : (List.range (taken.length + 1)).map (candidate key column) ⊆ taken := by
    intro k hk
    obtain ⟨i, hi, rfl⟩ := List.mem_map.mp hk
    by_contra hfree
    exact hnone ⟨i, Nat.le_of_lt_succ (List.mem_range.mp hi), hfree⟩
  have hnodup : ((List.range (taken.length + 1)).map (candidate key column)).Nodup :=
    List.Nodup.map (candidate_injective key column) List.nodup_range
  have hlength := (hnodup.subperm hsubset).length_le
  rw [List.length_map, List.length_range] at hlength
  exact Nat.not_succ_le_self taken.length hlength

/-- Some candidate is the first that is free. -/
theorem exists_first_candidate :
    ∃ i ≤ taken.length, candidate key column i ∉ taken ∧
      ∀ j < i, candidate key column j ∈ taken := by
  obtain ⟨bound, hbound, hfree⟩ := exists_candidate_not_mem taken key column
  have hsome : ∃ i, candidate key column i ∉ taken := ⟨bound, hfree⟩
  refine ⟨Nat.find hsome, (Nat.find_min' hsome hfree).trans hbound, Nat.find_spec hsome, ?_⟩
  intro j hj
  exact not_not.mp (Nat.find_min hsome hj)

variable {taken key column}

/-- The search through the numbers finds the first free one, however far it is
ready to go beyond it. -/
theorem find?_numbered {n bound : Nat} (hn : n < bound)
    (hfree : candidate key column (n + 2) ∉ taken)
    (hbefore : ∀ j < n + 2, candidate key column j ∈ taken) :
    ((List.range' 2 bound).find? fun n => !taken.contains (numbered key column n)) =
      some (n + 2) := by
  refine List.find?_range'_eq_some.mpr ⟨?_, ?_, ?_⟩
  · rw [Bool.not_eq_true', ← Bool.not_eq_true, List.contains_iff_mem]
    exact hfree
  · rw [List.mem_range'_1]
    omega
  · intro j hj hlt
    obtain ⟨j, rfl⟩ := Nat.exists_eq_add_of_le' hj
    rw [Bool.not_not, List.contains_iff_mem]
    exact hbefore (j + 2) hlt

/-- The free key is the first candidate that is not taken. -/
theorem freeKey_eq_candidate {i : Nat} (hi : i ≤ taken.length)
    (hfree : candidate key column i ∉ taken)
    (hbefore : ∀ j < i, candidate key column j ∈ taken) :
    freeKey taken key column = candidate key column i := by
  have hcontains : ∀ k, (!taken.contains k) = true ↔ k ∉ taken := by
    intro k
    rw [Bool.not_eq_true', ← Bool.not_eq_true, List.contains_iff_mem]
  unfold freeKey
  match i with
  | 0 => exact if_pos ((hcontains key).mpr hfree)
  | 1 =>
      have hkey := hbefore 0 Nat.zero_lt_one
      rw [if_neg (mt (hcontains key).mp (not_not_intro hkey))]
      exact if_pos ((hcontains _).mpr hfree)
  | n + 2 =>
      have hkey := hbefore 0 (Nat.zero_lt_succ _)
      have hcolumn := hbefore 1 (Nat.succ_lt_succ (Nat.zero_lt_succ _))
      rw [if_neg (mt (hcontains key).mp (not_not_intro hkey)),
        if_neg (mt (hcontains (withColumn key column)).mp (not_not_intro hcolumn)),
        find?_numbered (Nat.lt_succ_of_lt (Nat.lt_of_succ_lt hi)) hfree hbefore]
      rfl

variable (taken key column)

/-- A free key is not taken. -/
theorem freeKey_not_mem : freeKey taken key column ∉ taken := by
  obtain ⟨i, hi, hfree, hbefore⟩ := exists_first_candidate taken key column
  rw [freeKey_eq_candidate hi hfree hbefore]
  exact hfree

end

/-- Whatever keys the finished children of a unit have, the key for one more
is the first candidate that none of them has: the wanted key, if it is free,
and else the earliest later candidate.  At most one candidate more than there
are children is tried, so no number is greater than the number of children.

The numbers are only gone through if both the wanted key and the key with its
column are taken.  The search among them then has a result, the same one however
far it is ready to go, so it ends even without a bound, and the key with the
column alone never has to stand in for a number. -/
theorem uniqueKey_is_first_free {α : Type} (u : OpenUnit α) (key : String) (column : Nat) :
    let taken := u.finished.map (·.key)
    ∃ i ≤ u.finished.length,
      u.uniqueKey key column = candidate key column i ∧
      candidate key column i ∉ taken ∧
      (∀ j < i, candidate key column j ∈ taken) ∧
      (key ∉ taken → u.uniqueKey key column = key) ∧
      (key ∈ taken → withColumn key column ∈ taken → ∀ bound, u.finished.length ≤ bound →
        ((List.range' 2 bound).find? fun n => !taken.contains (numbered key column n)) =
          some i) := by
  intro taken
  have hlength : taken.length = u.finished.length := List.length_map _
  obtain ⟨i, hi, hfree, hbefore⟩ := exists_first_candidate taken key column
  have hkey : u.uniqueKey key column = candidate key column i :=
    freeKey_eq_candidate hi hfree hbefore
  refine ⟨i, hlength ▸ hi, hkey, hfree, hbefore, ?_, ?_⟩
  · intro hwanted
    have hzero : i = 0 := by
      by_contra hne
      exact hwanted (hbefore 0 (Nat.pos_of_ne_zero hne))
    rw [hkey, hzero]
    rfl
  · intro hwanted hcolumn bound hbound
    match i with
    | 0 => exact absurd hwanted hfree
    | 1 => exact absurd hcolumn hfree
    | n + 2 => exact find?_numbered (by omega) hfree hbefore

/-- A number that is free counts, though a later one is taken. -/
example : freeKey ["f", "f:5#4", "f:5#2", "f:5", "f:5"] "f" 5 = "f:5#3" := by decide +kernel

end OpenUnit
end SourceMetrics
