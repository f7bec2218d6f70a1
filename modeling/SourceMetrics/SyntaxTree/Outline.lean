/-
# `Outline` — trees written as rows

A tree can be written down row by row, each node before its children and
with its depth.  Read from the last row to the first, a row finds its
children right behind it: the trees that lie deeper.
-/
namespace SourceMetrics.Outline

variable {ρ τ : Type}

/-- Puts a row before the trees that follow it. -/
def place (make : ρ → List τ → τ) (row : Nat × ρ) (following : List (Nat × τ)) :
    List (Nat × τ) :=
  let below := following.takeWhile (fun t => row.1 < t.1)
  (row.1, make row.2 (below.map (·.2))) :: following.drop below.length

/-- The trees of some rows, with their depths. -/
def forest (make : ρ → List τ → τ) (rows : List (Nat × ρ)) : List (Nat × τ) :=
  rows.foldr (place make) []

/-- The tree of some rows, where they are just one. -/
def tree? (make : ρ → List τ → τ) (rows : List (Nat × ρ)) : Option τ :=
  match forest make rows with
  | [(_, t)] => some t
  | _ => none

end SourceMetrics.Outline
