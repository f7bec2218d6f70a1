/-
# `UnitExtractor` — which nodes start a unit

An extractor looks at a node, the nodes it lies within and the unit that is
open there, and may claim the node: a unit is then opened for it.  The
usual extractor is a rule that claims every node of some listed kinds and
keys the unit by a name and the line it starts on.
-/
import SourceMetrics.SyntaxTree.Node
import SourceMetrics.Unit.Kind

namespace SourceMetrics

/-- A unit to be opened. -/
structure UnitSpec where
  kind : UnitKind
  key : String
  startLine : Nat
deriving DecidableEq, Repr

/-- Where a node stands: the nodes it lies within, the nearest first, and
the innermost open unit. -/
structure Surroundings where
  ancestors : List Node
  unitKind : UnitKind
  unitKey : String

namespace Surroundings

/-- The node right above. -/
def parent? (s : Surroundings) : Option Node := s.ancestors.head?

end Surroundings

/-- Decides which nodes start a unit.  `nodeTypes` are the kinds it may
claim, as far as they are known beforehand. -/
structure UnitExtractor where
  name : String
  nodeTypes : List String
  extract : Node → Surroundings → Option UnitSpec

/-- The name of a unit, taken from its node. -/
abbrev KeyBuilder := Node → Surroundings → String

namespace UnitExtractor

/-- Claims every node of the listed kinds, with the key `name:line`. -/
def rule (label : String) (kind : UnitKind) (nodeTypes : List String) (name : KeyBuilder) :
    UnitExtractor where
  name := label
  nodeTypes := nodeTypes
  extract n surroundings :=
    if nodeTypes.contains n.kind then
      some ⟨kind, s!"{name n surroundings}:{n.startLine}", n.startLine⟩
    else none

/-- The first of the extractors that claims the node wins. -/
def firstClaim (extractors : List UnitExtractor) (n : Node) (surroundings : Surroundings) :
    Option UnitSpec :=
  extractors.findSome? (·.extract n surroundings)

variable {extractors : List UnitExtractor} {n : Node} {surroundings : Surroundings}

/-- A node is left alone when every extractor declines it. -/
theorem firstClaim_eq_none_iff :
    firstClaim extractors n surroundings = none ↔
      ∀ e ∈ extractors, e.extract n surroundings = none :=
  List.findSome?_eq_none_iff

/-- A node is claimed as the earliest extractor that claims it says: all
before that one decline. -/
theorem firstClaim_eq_some_iff {claim : UnitSpec} :
    firstClaim extractors n surroundings = some claim ↔
      ∃ before e after, extractors = before ++ e :: after ∧
        e.extract n surroundings = some claim ∧
        ∀ e' ∈ before, e'.extract n surroundings = none :=
  List.findSome?_eq_some_iff

end UnitExtractor

/-! ## Names -/

namespace KeyBuilder

/-- The kind of the node. -/
def byKind : KeyBuilder := fun n _ => n.kind

/-- The text of the child in a role, `?` where there is none. -/
def byField (field : String) : KeyBuilder := fun n _ =>
  ((n.childByField field).bind Node.tokenText).getD "?"

/-- How deep the node lies, the kind of its parent and the open unit. -/
def bySurroundings : KeyBuilder := fun _ s =>
  let parent := (s.parent?.map Node.kind).getD "-"
  s!"{s.ancestors.length}@{parent}/{s.unitKind.name}/{s.unitKey}"

end KeyBuilder
end SourceMetrics
