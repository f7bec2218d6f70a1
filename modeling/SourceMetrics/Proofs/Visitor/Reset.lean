/-
# Visitors that start every file anew

A visitor carries a state from call to call and from file to file.  What it
was set up with is part of that state or of the visitor itself; the rest
should be gone when the next file begins.

`Visitor.Resets` says so: no call and no copy changes the setup, and the
first call of a file, `visitFile`, answers by the setup alone.  The
visitors that come with the scanner keep no setup in their states, so for
them the first call forgets everything (`BuiltIn.resets`).
-/
import SourceMetrics.Proofs.Scan.Schedule
import SourceMetrics.Visitor.Comments
import SourceMetrics.Visitor.Counter
import SourceMetrics.Visitor.Lines
import SourceMetrics.Visitor.LinesOfCode

namespace SourceMetrics.Visitor

variable {σ α κ : Type}

/-- The visitor keeps its setup, and of its state brings nothing else into a
file. -/
structure Resets (v : Visitor σ α) (setup : σ → κ) : Prop where
  fork : ∀ memory, setup (v.fork memory) = setup memory
  keeps : ∀ (hook : Hook) (n : Node) (memory : σ) (view : UnitView α),
    setup ((hook.question n : Engine.Question σ α) v memory view).1 = setup memory
  forgets : ∀ (n : Node) (memory memory' : σ) (view : UnitView α),
    setup memory = setup memory' → v.visitFile memory n view = v.visitFile memory' n view

variable [Amount α]

/-- The visitors that come with the scanner. -/
inductive BuiltIn : Visitor FileMemory α → Prop
  | counter (metric : Metric) (nodeTypes : List String) : BuiltIn (counter metric nodeTypes)
  | lines (metric : Metric) : BuiltIn (lines metric)
  | linesOfCode (metric : Metric) : BuiltIn (linesOfCode metric)
  | comments (analyser : CommentAnalyser) (options : CommentOptions) :
      BuiltIn (comments analyser options)

/-- A built-in visitor begins a file the same way in every state. -/
theorem BuiltIn.visitFile_eq {v : Visitor FileMemory α} (h : BuiltIn v) (n : Node)
    (memory memory' : FileMemory) (view : UnitView α) :
    v.visitFile memory n view = v.visitFile memory' n view := by
  cases h <;> rfl

/-- A built-in visitor never looks at the unit. -/
theorem BuiltIn.blind {v : Visitor FileMemory α} (h : BuiltIn v) (hook : Hook) (n : Node)
    (memory : FileMemory) (view view' : UnitView α) :
    (hook.question n : Engine.Question FileMemory α) v memory view =
      (hook.question n : Engine.Question FileMemory α) v memory view' := by
  cases h with
  | counter metric nodeTypes => cases hook <;> rfl
  | lines metric => cases hook <;> rfl
  | linesOfCode metric => cases hook <;> rfl
  | comments analyser options => cases hook <;> rfl

theorem BuiltIn.resets {v : Visitor FileMemory α} (h : BuiltIn v) :
    v.Resets fun _ => () where
  fork _ := rfl
  keeps _ _ _ _ := rfl
  forgets n memory memory' view _ := h.visitFile_eq n memory memory' view

end SourceMetrics.Visitor
