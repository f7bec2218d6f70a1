/-
# Scanning JavaScript

The standard metrics of JavaScript: functions, lines, lines of code,
comments, statements and complexity, with a unit for every function and, if
asked for, one for every class.
-/
import SourceMetrics.JavaScript.Comment
import SourceMetrics.JavaScript.Kinds
import SourceMetrics.Scan.Session
import SourceMetrics.SyntaxTree.External
import SourceMetrics.Visitor.Counter
import SourceMetrics.Visitor.Lines
import SourceMetrics.Visitor.LinesOfCode

namespace SourceMetrics.JavaScript

/-! ## Names of units -/

/-- The key of the project. -/
def projectKey : String := "JavaScript Project"

/-- The name of a unit that has none. -/
def anonymous : String := "<anonymous>"

/-- The name a node spells: the content of a string, the property of a
member, or else its own text. -/
def nameText (n : Node) : Option String :=
  match n.kind with
  | "string" => (n.childOfKind "string_fragment").bind Node.tokenText
  | "member_expression" => (n.childByField "property").bind Node.tokenText
  | _ => n.tokenText

/-- The role of the name in a node that binds a value to it. -/
def bindingField : String → Option String
  | "variable_declarator" => some "name"
  | "pair" => some "key"
  | "assignment_expression" => some "left"
  | _ => none

/-- What a function or class is bound to right above. -/
def binding (s : Surroundings) : Option Node := do
  let parent ← s.parent?
  let field ← bindingField parent.kind
  parent.childByField field

/-- The name of a function or class: its own, or else the name it is bound
to. -/
def unitName : KeyBuilder := fun n s =>
  match (n.childByField "name").bind nameText with
  | some name => name
  | none => ((binding s).bind nameText).getD anonymous

/-- Opens a unit for every class. -/
def classRule : UnitExtractor := .rule "class" .cls classTypes unitName

/-- Opens a unit for every function. -/
def functionRule : UnitExtractor := .rule "function" .function functionTypes unitName

/-! ## Configuration -/

/-- The options of a scan. -/
structure Options where
  /-- Whether comments before the first code of a file are passed over. -/
  ignoreHeaderComments : Bool
  /-- Whether every class has a unit, between the file and its methods. -/
  classUnits : Bool
deriving DecidableEq, Repr

namespace Options

/-- Header comments are passed over, and classes have no units. -/
def standard : Options := ⟨true, false⟩

end Options

variable {α : Type} [Amount α]

/-- What is done with comments. -/
def commentOptions (options : Options) : CommentOptions :=
  { CommentOptions.standard with ignoreHeader := options.ignoreHeaderComments, noSonar := true }

/-- The visitors of the standard metrics. -/
def standardVisitors (options : Options) : List (Visitor FileMemory α) :=
  [.counter Metric.functions functionTypes,
    .lines Metric.lines,
    .linesOfCode Metric.linesOfCode,
    .comments commentAnalyser (commentOptions options),
    .counter Metric.statements statementTypes,
    .counter Metric.complexity complexityTypes]

/-- The rules that open units. -/
def extractors (options : Options) : List UnitExtractor :=
  if options.classUnits then [classRule, functionRule] else [functionRule]

/-- The configuration of a scanner, with metrics and visitors beyond the
standard ones.  Further metrics follow the standard ones, so that a
computed one may read those. -/
def config (options : Options) (extraMetrics : List (MetricDefinition α))
    (extraVisitors : List (Visitor FileMemory α)) : ScannerConfig FileMemory α where
  projectKey := projectKey
  metrics := MetricDefinition.standard ++ extraMetrics
  filesMetric := some Metric.files
  visitors := standardVisitors options ++ extraVisitors
  extractors := extractors options

/-- The grammar of JavaScript, with an external parser. -/
def grammar (parser : String → Option RawNode) : Grammar :=
  .external "javascript" commentTypes knownTypes parser

/-! ## A single file -/

/-- What the scan of a single file comes to. -/
structure SingleScan (α : Type) where
  result : Except ScanError (UnitTree α)
  events : List (Event α)

/-- Scans one file with the standard options and gives its tree. -/
def scanSingleFile (parser : String → Option RawNode) (isFile : String → Bool) (read : Reader)
    (path : String) (extraVisitors : List (Visitor FileMemory α)) : SingleScan α :=
  if !isFile path then ⟨.error (.io path .notFile), []⟩
  else
    match Scanner.new (config .standard [] extraVisitors) (grammar parser) with
    | .error err => ⟨.error err, []⟩
    | .ok (sc, events) =>
      let o := sc.scanSingleFile read path
      ⟨o.result, events ++ o.events⟩

end SourceMetrics.JavaScript
