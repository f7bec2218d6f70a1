/-
# Reading settings

A settings file is a mapping from the names of fields to their values.  A
field that is left out has its standard value; a name that is no field's is
passed over; a field that is given twice is a fault.
-/
import SourceMetrics.Settings.Basic
import SourceMetrics.Yaml.Node

namespace SourceMetrics

/-- Why there are no settings in a file. -/
inductive SettingsReadFault where
  | io (fault : IoFault)
  | notYaml (fault : Yaml.Fault)
  | notSettings
  | notName
  | repeated (name : String)
  | notBoolean
  | notList
  | notText
deriving DecidableEq, Repr

namespace SettingsReadFault

def message : SettingsReadFault → String
  | io fault => fault.message
  | notYaml _ => "malformed YAML"
  | notSettings => "expected a mapping of settings"
  | notName => "expected the name of a field"
  | repeated name => "duplicate field " ++ Text.quoted name
  | notBoolean => "expected a boolean"
  | notList => "expected a sequence"
  | notText => "expected a string"

end SettingsReadFault

namespace Yaml.Document

/-! ## Values -/

/-- The tag of truth values. -/
def booleanTag : List Char := "tag:yaml.org,2002:bool".toList

/-- The truth value that a word spells. -/
def boolean? (word : List Char) : Option Bool :=
  if ["true", "True", "TRUE"].contains (String.ofList word) then some true
  else if ["false", "False", "FALSE"].contains (String.ofList word) then some false
  else none

/-- Reads a truth value.  It is written plain, or as a block with a tag. -/
def readBoolean (d : Document) (node : Node) : Except SettingsReadFault Bool :=
  match d.resolve node with
  | .scalar text style tag =>
    if style == .plain || (style == .literal && tag == booleanTag) then
      match boolean? text with
      | some b => .ok b
      | none => .error .notBoolean
    else .error .notBoolean
  | _ => .error .notBoolean

/-- Reads a text: any scalar, as it stands. -/
def readText (d : Document) (node : Node) : Except SettingsReadFault String :=
  match d.resolve node with
  | .scalar text _ _ => .ok (String.ofList text)
  | _ => .error .notText

/-- Reads a list of texts.  Nothing is the empty list. -/
def readTexts (d : Document) (node : Node) : Except SettingsReadFault (List String) :=
  match d.resolve node with
  | .sequence items => items.mapM d.readText
  | node => if node.isEmpty then .ok [] else .error .notList

end Yaml.Document

/-! ## Fields -/

namespace Settings

inductive Field where
  | ignoreHeaderComments
  | classUnits
  | parallel
  | excludedPaths
  | extensions
deriving DecidableEq, Repr

namespace Field

/-- All fields, in their order. -/
def all : List Field := [ignoreHeaderComments, classUnits, parallel, excludedPaths, extensions]

def name : Field → String
  | ignoreHeaderComments => "ignore_header_comments"
  | classUnits => "class_units"
  | parallel => "parallel"
  | excludedPaths => "excluded_paths"
  | extensions => "extensions"

/-- The field of a name. -/
def ofName? (name : String) : Option Field := all.find? (·.name == name)

/-- Sets the field to the value a node holds. -/
def read (d : Yaml.Document) (s : Settings) (node : Yaml.Node) :
    Field → Except SettingsReadFault Settings
  | ignoreHeaderComments => do return { s with ignoreHeaderComments := ← d.readBoolean node }
  | classUnits => do return { s with classUnits := ← d.readBoolean node }
  | parallel => do return { s with parallel := ← d.readBoolean node }
  | excludedPaths => do return { s with excludedPaths := ← d.readTexts node }
  | extensions => do return { s with extensions := ← d.readTexts node }

end Field

/-! ## Settings -/

/-- Reads pairs of a name and a value.  `seen` are the fields already
given. -/
def readPairs (d : Yaml.Document) (s : Settings) (seen : List Field) :
    List (Yaml.Node × Yaml.Node) → Except SettingsReadFault Settings
  | [] => .ok s
  | (key, node) :: rest => do
    match d.resolve key with
    | .scalar text _ _ =>
      match Field.ofName? (String.ofList text) with
      | none => readPairs d s seen rest
      | some field =>
        if seen.contains field then .error (.repeated field.name)
        else readPairs d (← field.read d s node) (field :: seen) rest
    | _ => .error .notName

/-- The settings of a document. -/
def ofDocument (d : Yaml.Document) : Except SettingsReadFault Settings :=
  match d.root with
  | .mapping pairs => readPairs d standard [] pairs
  | node => if node.isEmpty then .ok standard else .error .notSettings

/-- The settings that a text holds.  A text without a document holds the
standard ones. -/
def ofText (text : String) : Except SettingsReadFault Settings :=
  match Yaml.document? text.toList with
  | .error fault => .error (.notYaml fault)
  | .ok none => .ok standard
  | .ok (some d) => ofDocument d

/-- The settings in the file a path leads to. -/
def load (fs : FileSystem) (path : String) : Except SettingsReadFault Settings :=
  match fs.readText path with
  | .error fault => .error (.io fault)
  | .ok text => ofText text

end Settings
end SourceMetrics
