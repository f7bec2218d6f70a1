/-
# Errors of a scan

A fault is a cause, and its wording is one function beside it.  A parse
fault or an I/O fault concerns one file, and a session over many files
records it and moves on; a fault of the configuration or a broken
invariant always reaches the caller (`ScanError.isFileScoped`).
-/
import SourceMetrics.Text.Quoted
import SourceMetrics.Unit.Kind

namespace SourceMetrics

/-! ## Parsing -/

/-- Why a text has no syntax tree. -/
inductive ParseFault where
  /-- The parser had to invent a token of this kind. -/
  | missing (kind : String)
  /-- The parser could not place this stretch of text. -/
  | unexpected (text : String)
  /-- The text is in error, but no node shows where. -/
  | unlocated
  /-- The parser gave no tree at all. -/
  | noTree
  /-- A grammar's own report. -/
  | reported (text : String)
deriving DecidableEq, Repr

namespace ParseFault

/-- How many characters of an unexpected stretch are quoted. -/
def quotedLength : Nat := 32

def message : ParseFault → String
  | missing kind => "missing " ++ kind
  | unexpected text => "unexpected " ++ Text.quoted (String.ofList (text.toList.take quotedLength))
  | unlocated => "syntax error"
  | noTree => "parser produced no tree"
  | reported text => text

end ParseFault

/-- A parse fault and where it lies, counted from one. -/
structure ParseError where
  line : Nat
  column : Nat
  fault : ParseFault
deriving DecidableEq, Repr

namespace ParseError

def message (e : ParseError) : String := s!"{e.line}:{e.column}: {e.fault.message}"

end ParseError

/-! ## Configuration -/

/-- Why a scanner cannot be built. -/
inductive ConfigurationFault where
  | noMetrics
  | readsUndefined (metric input : String)
  | metricDefinedTwice (metric : String)
  | noVisitors
  | writesUndefined (visitor metric : String)
  | writesComputed (visitor metric : String)
  | metricWrittenTwice (metric first second : String)
  | filesMetricUndefined (metric : String)
  | filesMetricComputed (metric : String)
  | filesMetricWritten (metric visitor : String)
  /-- An embedding program's own report. -/
  | reported (text : String)
deriving DecidableEq, Repr

namespace ConfigurationFault

def message : ConfigurationFault → String
  | noMetrics => "no metric definitions supplied"
  | readsUndefined metric input =>
    s!"computed metric {metric} reads {input} which is not defined before it"
  | metricDefinedTwice metric => s!"metric {metric} is defined more than once"
  | noVisitors => "at least one metric visitor is required"
  | writesUndefined visitor metric => s!"visitor {visitor} writes undefined metric {metric}"
  | writesComputed visitor metric => s!"visitor {visitor} writes computed metric {metric}"
  | metricWrittenTwice metric first second =>
    s!"metric {metric} is written by both {first} and {second}"
  | filesMetricUndefined metric => s!"files metric {metric} is not defined"
  | filesMetricComputed metric => s!"files metric {metric} cannot be computed"
  | filesMetricWritten metric visitor =>
    s!"files metric {metric} is also written by visitor {visitor}"
  | reported text => text

end ConfigurationFault

/-! ## Invariants -/

/-- A promise the scanner or its caller has not kept. -/
inductive InvariantFault where
  | alreadyIndexed (kind : UnitKind) (key : String)
  | noOpenUnit
  | fileClosedEarly (file : String)
  | unbalanced (file : String)
  | notOneFile (count : Nat)
  | fileNotIndexed (id : Nat)
  /-- An embedding program's own report. -/
  | reported (text : String)
deriving DecidableEq, Repr

namespace InvariantFault

def message : InvariantFault → String
  | alreadyIndexed kind key =>
    s!"{kind.name} {Text.quoted key} is already indexed in this session"
  | noOpenUnit => "unit stack is empty"
  | fileClosedEarly file =>
    s!"attempted to close the file unit of {file} before the walk finished"
  | unbalanced file => s!"unit stack unbalanced after scanning {file}"
  | notOneFile count => s!"single-file scan produced {count} file units"
  | fileNotIndexed id => s!"file unit UnitId({id}) missing from index"
  | reported text => text

end InvariantFault

/-! ## Files -/

/-- Why a file cannot be read. -/
inductive IoFault where
  | notFound
  | isDirectory
  | notDirectory
  | tooManyLinks
  | nameTooLong
  | nulByte
  | notUtf8
  | notFile
  /-- The system's own report. -/
  | reported (text : String)
deriving DecidableEq, Repr

namespace IoFault

def message : IoFault → String
  | notFound => "No such file or directory (os error 2)"
  | isDirectory => "Is a directory (os error 21)"
  | notDirectory => "Not a directory (os error 20)"
  | tooManyLinks => "Too many levels of symbolic links (os error 40)"
  | nameTooLong => "File name too long (os error 36)"
  | nulByte => "file name contained an unexpected NUL byte"
  | notUtf8 => "stream did not contain valid UTF-8"
  | notFile => "not a file"
  | reported text => text

end IoFault

/-! ## All of them -/

/-- Why a scan gives no answer. -/
inductive ScanError where
  | parse (file : String) (error : ParseError)
  | configuration (fault : ConfigurationFault)
  | invariant (fault : InvariantFault)
  | io (path : String) (fault : IoFault)
deriving DecidableEq, Repr

namespace ScanError

def message : ScanError → String
  | parse file error => s!"parse error in {file} at {error.message}"
  | configuration fault => s!"invalid scanner configuration: {fault.message}"
  | invariant fault => s!"invariant violated: {fault.message}"
  | io path fault => s!"reading {path}: {fault.message}"

/-- The text of the fault behind the error, where there is one. -/
def cause : ScanError → Option String
  | parse _ error => some error.message
  | io _ fault => some fault.message
  | configuration _ | invariant _ => none

/-- Whether the error concerns only the file that is being scanned. -/
def isFileScoped : ScanError → Bool
  | parse .. | io .. => true
  | configuration _ | invariant _ => false

end ScanError
end SourceMetrics
