/-
# Runs of characters

Where a text starts with characters of one kind and goes on with another,
the two parts are told apart.  This is all that separates a number or a word
in a text from what stands behind it.
-/
import Mathlib.Data.List.TakeWhile

namespace SourceMetrics.Text

variable {p : Char → Bool}

/-- A text does not start with a character of a kind. -/
def Stops (p : Char → Bool) (rest : List Char) : Prop :=
  ∀ c tail, rest = c :: tail → p c = false

theorem stops_nil : Stops p [] := fun _ _ h => by cases h

theorem stops_cons {c : Char} {tail : List Char} (h : p c = false) : Stops p (c :: tail) := by
  rintro _ _ ⟨⟩
  exact h

theorem Stops.takeWhile_eq_nil {rest : List Char} (h : Stops p rest) : rest.takeWhile p = [] := by
  cases rest with
  | nil => rfl
  | cons c tail =>
      refine List.takeWhile_cons_of_neg ?_
      rw [h c tail rfl]
      exact Bool.false_ne_true

/-- Of a text that starts with a run of characters, the run and the rest are
told apart. -/
theorem run_append_inj {w w' r r' : List Char} (hw : ∀ c ∈ w, p c = true)
    (hw' : ∀ c ∈ w', p c = true) (hr : Stops p r) (hr' : Stops p r')
    (h : w ++ r = w' ++ r') : w = w' ∧ r = r' := by
  have hrun := congrArg (List.takeWhile p) h
  rw [List.takeWhile_append_of_pos hw, List.takeWhile_append_of_pos hw', hr.takeWhile_eq_nil,
    hr'.takeWhile_eq_nil, List.append_nil, List.append_nil] at hrun
  subst hrun
  exact ⟨rfl, List.append_cancel_left h⟩

/-- The digits of a number are a run. -/
theorem isDigit_of_mem_toDigits (n : Nat) : ∀ c ∈ Nat.toDigits 10 n, c.isDigit = true :=
  fun _ hc => Nat.isDigit_of_mem_toDigits (by decide) (by decide) hc

end SourceMetrics.Text
