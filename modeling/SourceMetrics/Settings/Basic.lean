/-
# `Settings` — which files are scanned, and how

Settings name the extensions of the files to scan and patterns of the paths
to leave out, and give the options of the scan.  They are valid when there
is an extension, every extension is bare and every pattern can be read.
-/
import SourceMetrics.Files.FileSystem
import SourceMetrics.Glob.Match
import SourceMetrics.JavaScript.Scanner

namespace SourceMetrics

/-- The settings of a run. -/
structure Settings where
  ignoreHeaderComments : Bool
  classUnits : Bool
  /-- Whether files are scanned on several workers. -/
  parallel : Bool
  excludedPaths : List String
  /-- Extensions without their dots. -/
  extensions : List String
deriving DecidableEq, Repr

/-- Why settings are refused. -/
inductive SettingsFault where
  | noExtensions
  | invalidExtension (extension : String)
  | invalidPattern (pattern : String) (fault : Glob.Fault)
deriving DecidableEq, Repr

namespace SettingsFault

def message : SettingsFault → String
  | noExtensions => "extensions must not be empty"
  | invalidExtension extension =>
    "invalid extension " ++ Text.quoted extension ++ ", expected a bare extension like \"js\""
  | invalidPattern pattern fault =>
    "invalid excluded_paths pattern " ++ Text.quoted pattern ++ ": " ++
      Glob.describe pattern fault

end SettingsFault

namespace Settings

/-- The settings where nothing is set. -/
def standard : Settings := ⟨true, false, false, [], ["js", "jsx", "mjs", "cjs"]⟩

/-- The options of the scan. -/
def options (s : Settings) : JavaScript.Options := ⟨s.ignoreHeaderComments, s.classUnits⟩

/-- Whether a pattern leaves a path out.  A pattern that cannot be read
leaves none out. -/
def excludes (s : Settings) (path : String) : Bool :=
  s.excludedPaths.any (Glob.matchesPath · path)

/-- Whether a file is to be scanned. -/
def accepts (s : Settings) (path : String) : Bool :=
  s.extensions.contains ((Path.extension? path).getD "") && !s.excludes path

/-- Whether an extension is not bare. -/
def isBadExtension (extension : String) : Bool :=
  extension.isEmpty || extension.toList.head? == some '.'

/-- The fault of the first pattern that cannot be read. -/
def patternFault? (patterns : List String) : Option SettingsFault :=
  patterns.findSome? fun p =>
    match Glob.read p with
    | .ok _ => none
    | .error fault => some (.invalidPattern p fault)

/-- The first fault of the settings. -/
def fault? (s : Settings) : Option SettingsFault :=
  if s.extensions.isEmpty then some .noExtensions
  else
    match s.extensions.find? isBadExtension with
    | some extension => some (.invalidExtension extension)
    | none => patternFault? s.excludedPaths

/-- The names a settings file may have, the preferred one first. -/
def fileNames : List String := ["astscan.yaml", ".astscan.yaml"]

/-- The settings file in a directory. -/
def discover (fs : FileSystem) (directory : String) : Option String :=
  (fileNames.map (Path.join directory)).find? fs.holds

end Settings
end SourceMetrics
