/-
# The command line

Reads the arguments and the files they lead to, runs the command and writes
what it comes to.  The syntax trees come from an external parser: the tree
of a file's text is listed in a file beside it whose name has `.tree`
behind it (`RawNode.ofListing?`).
-/
import SourceMetrics.Command.Run
import SourceMetrics.SyntaxTree.Listing

namespace SourceMetrics.Command

/-- What the name of a listing ends with. -/
def listingEnding : String := ".tree"

/-- The text of a file and the tree listed beside it. -/
def listedTree? (fs : FileSystem) (path : String) : Option (String × RawNode) := do
  let text ← (fs.readLossy path).toOption
  let listing ← (fs.readText (path ++ listingEnding)).toOption
  return (text, ← RawNode.ofListing? listing)

/-- The parser that knows the texts of the files below a path. -/
def listedParser (fs : FileSystem) (root : String) : String → Option RawNode :=
  let table := (fs.collectPaths (fun _ => true) root).filterMap (listedTree? fs)
  fun text => table.lookup text

/-- How the program is called. -/
def usage : String :=
  "Usage: astscan [-v] scan [--config FILE] [--format pretty|json] [--parallel]\n" ++
  "                    [--no-ignore-header] PATH\n"

/-- The message on a fault of the arguments. -/
def ArgumentFault.message : ArgumentFault → String
  | nothing | helpWanted => usage
  | versionWanted => "astscan " ++ Report.version ++ "\n"
  | missingCommand => "error: a command is required\n" ++ usage
  | unknownCommand name => "error: unknown command " ++ Text.quoted name ++ "\n" ++ usage
  | missingPath => "error: a path is required\n" ++ usage
  | unknownArgument text => "error: unexpected argument " ++ Text.quoted text ++ "\n" ++ usage
  | invalidValue option => "error: invalid value for " ++ option ++ "\n" ++ usage
  | repeatedOption option => "error: " ++ option ++ " is given twice\n" ++ usage
  | unneededValue option => "error: " ++ option ++ " takes no value\n" ++ usage

/-- Whether a fault of the arguments is an answer that was asked for. -/
def ArgumentFault.isAnswer : ArgumentFault → Bool
  | helpWanted | versionWanted => true
  | _ => false

/-! ## The outside -/

/-- What a real path leads to, with all that lies below it. -/
partial def loadEntry (path : String) : IO Entry := do
  let real ← IO.FS.realPath path
  match (← real.symlinkMetadata).type with
  | .dir =>
    let names ← (← real.readDir).toList.filterMapM fun e => do
      let inner := Path.join path e.fileName
      match (← e.path.symlinkMetadata).type with
      | .symlink => return some (e.fileName, Entry.link (← IO.FS.realPath inner).toString)
      | .other => return none
      | _ => return some (e.fileName, ← loadEntry inner)
    return .directory names
  | _ => return .file (← IO.FS.readBinFile real)

/-- Whether a path leads to a file. -/
def leadsToFile (path : String) : IO Bool := do
  try
    match (← (← IO.FS.realPath path).metadata).type with
    | .file => return true
    | _ => return false
  catch _ => return false

/-- The file system with what a path leads to, or else with the file that
the path goes on behind. -/
partial def withPath (fs : FileSystem) (path : String) : IO FileSystem := do
  try
    let real := (← IO.FS.realPath path).toString
    let chain := (Path.parts real).filter (!·.isEmpty)
    let lexical := (Path.parts path).filter (!·.isEmpty)
    let fs := { fs with root := fs.root.put chain (← loadEntry real) }
    if fs.holds path then return fs
    else
      let place := if Path.isAbsolute path then lexical else fs.current ++ lexical
      return { fs with root := fs.root.put place (.link real) }
  catch _ =>
    if ← leadsToFile (Path.parent path) then withPath fs (Path.parent path) else return fs

/-- The part of the file system a run may look at. -/
def loadFileSystem (args : ScanArguments) : IO FileSystem := do
  let current := (Path.parts (← IO.currentDir).toString).filter (!·.isEmpty)
  let empty : FileSystem := ⟨(Entry.directory []).put current (.directory []), current⟩
  let fs ← withPath empty args.path
  let directories := match fs.canonicalize args.path with
    | .ok root => [Path.parent root, "."]
    | .error _ => ["."]
  let found := directories.flatMap fun directory => Settings.fileNames.map (Path.join directory)
  ((args.path ++ listingEnding) :: args.config.toList ++ found).foldlM withPath fs

/-- Runs the command and gives the exit code. -/
def execute (args : ScanArguments) : IO UInt32 := do
  let fs ← loadFileSystem args
  let output ← IO.getStdout
  let result := runResult fs (listedParser fs args.path) (← output.isTty) args
  output.putStr result.output
  (← IO.getStderr).putStr result.complaint
  return result.code.toUInt32

end SourceMetrics.Command

def main (arguments : List String) : IO UInt32 := do
  match SourceMetrics.Command.Arguments.read ("astscan" :: arguments) with
  | .ok read => SourceMetrics.Command.execute read.scan
  | .error fault =>
    if fault.isAnswer then
      (← IO.getStdout).putStr fault.message
      return 0
    else
      (← IO.getStderr).putStr fault.message
      return 2
