/-
# `run` — the scan command

A run finds its settings, collects the files below a path, scans them and
writes a report.  Settings are the file that was named, or else one found
in the directory that is scanned, or else one in the current directory, or
else the standard ones.  The exit code is 0 where every file was scanned, 1
where one was not, and 2 where the run could not start.
-/
import SourceMetrics.Command.Arguments
import SourceMetrics.Report.Pretty
import SourceMetrics.Scan.Parallel
import SourceMetrics.Settings.Reading

namespace SourceMetrics.Command

/-- Why a run could not be made. -/
inductive RunFault where
  | noAccess (path : String) (fault : IoFault)
  | badSettings (path : String) (fault : SettingsReadFault)
  | invalidSettings (fault : SettingsFault)
  | scan (error : ScanError)
deriving DecidableEq, Repr

namespace RunFault

/-- The message on a settings file that cannot be read. -/
def settingsMessage (path detail : String) : String :=
  "cannot parse settings " ++ path ++ ": " ++ detail

def message : RunFault → String
  | noAccess path fault => "cannot access path " ++ Text.quoted path ++ ": " ++ fault.message
  | badSettings path fault => settingsMessage path fault.message
  | invalidSettings fault => fault.message
  | scan error => error.message

end RunFault

/-- What a run comes to. -/
inductive RunResult where
  | failed (fault : RunFault)
  | noFiles
  | report (text : String) (isClean : Bool)
deriving DecidableEq, Repr

namespace RunResult

/-- The exit code. -/
def code : RunResult → Nat
  | failed _ => 2
  | noFiles => 0
  | report _ isClean => if isClean then 0 else 1

/-- What is written to the standard output. -/
def output : RunResult → String
  | report text _ => text
  | _ => ""

/-- A line on a fault. -/
def errorLine (message : String) : String := "Error: " ++ message ++ "\n"

/-- What is written to the standard error. -/
def complaint : RunResult → String
  | failed fault => errorLine fault.message
  | noFiles => "Warning: no files to scan\n"
  | report _ _ => ""

end RunResult

/-- The settings file for the scan of a path, if there is one. -/
def settingsPath (fs : FileSystem) (named : Option String) (root : String) : Option String :=
  match named with
  | some path => some path
  | none =>
    let directory := if fs.isDirectory root then root else Path.parent root
    (Settings.discover fs directory).or (Settings.discover fs ".")

/-- The settings in a file, if one is given, that are valid. -/
def loadSettings (fs : FileSystem) (path : Option String) : Except RunFault Settings := do
  let settings ← match path with
    | none => .ok Settings.standard
    | some path =>
      match Settings.load fs path with
      | .ok settings => .ok settings
      | .error fault => .error (RunFault.badSettings path fault)
  match settings.fault? with
  | none => return settings
  | some fault => .error (.invalidSettings fault)

/-- Settings as the arguments change them. -/
def ScanArguments.adjust (args : ScanArguments) (settings : Settings) : Settings :=
  { settings with
    ignoreHeaderComments := settings.ignoreHeaderComments && !args.noIgnoreHeader
    parallel := settings.parallel || args.parallel }

/-- Scans files as settings say; on several workers, they are shared out as
given. -/
def scan {α : Type} [Amount α] (fs : FileSystem) (parser : String → Option RawNode)
    (settings : Settings) (d : Distribution) (files : List String) :
    Except ScanError (Session FileMemory α) := do
  let config := JavaScript.config settings.options [] []
  let (scanner, _) ← Scanner.new config (JavaScript.grammar parser)
  if settings.parallel then
    return scanner.scanFilesParallel fs.readLossy d files
  else return scanner.scanFiles fs.readLossy none files

/-- The report on a session. -/
def reportText (args : ScanArguments) (config : Option String) (colours : Bool)
    (index : UnitIndex Float) (report : ScanReport) : String :=
  let subject : Report.Subject := ⟨args.path, config⟩
  match args.format with
  | .json => Report.structuredText subject index report
  | .pretty => Report.prettyText colours subject index report

/-- Runs the scan command; on several workers, files are shared out as given
for their number. -/
def runSharing (share : Nat → Distribution) (fs : FileSystem) (parser : String → Option RawNode)
    (colours : Bool) (args : ScanArguments) : Except RunFault RunResult := do
  let root ← (fs.canonicalize args.path).mapError (RunFault.noAccess args.path)
  let config := settingsPath fs args.config root
  let settings := args.adjust (← loadSettings fs config)
  let files := fs.collectPaths settings.accepts root
  if files.isEmpty then return .noFiles
  let session : Session FileMemory Float ←
    (scan fs parser settings (share files.length) files).mapError RunFault.scan
  let report ← session.result.mapError RunFault.scan
  return .report (reportText args config colours session.scanner.index report) report.isClean

/-- Runs the scan command. -/
def run (fs : FileSystem) (parser : String → Option RawNode) (colours : Bool)
    (args : ScanArguments) : Except RunFault RunResult :=
  runSharing .single fs parser colours args

/-- What the scan command comes to. -/
def runResult (fs : FileSystem) (parser : String → Option RawNode) (colours : Bool)
    (args : ScanArguments) : RunResult :=
  match run fs parser colours args with
  | .ok result => result
  | .error fault => .failed fault

end SourceMetrics.Command
