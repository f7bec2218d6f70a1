/-
# `FileSystem` — files and directories as a value

A file system is a tree of directories with files and symbolic links in
them, and the directory that relative paths start from.  A path is followed
part by part, as the system does: a part that stands where a directory is
needed fails unless there is one, links are followed up to a limit, and
`..` leads up from wherever the path has come to.
-/
import SourceMetrics.Files.Path
import SourceMetrics.Scan.Error
import SourceMetrics.Text.Utf8

namespace SourceMetrics

/-- What a name in a directory stands for.  The names of a directory are
listed in the order in which the system gives them. -/
inductive Entry where
  | file (bytes : ByteArray)
  | directory (names : List (String × Entry))
  | link (target : String)
deriving Inhabited

namespace Entry

/-- What a name stands for below an entry. -/
def below? (e : Entry) (name : String) : Option Entry :=
  match e with
  | directory names => names.lookup name
  | _ => none

/-- What stands at the end of a chain of names. -/
def at? (e : Entry) : List String → Option Entry
  | [] => some e
  | name :: rest => (e.below? name).bind (·.at? rest)

/-- What stands at a place after something is put there; a directory that is
to be made and is already there stays as it is. -/
def replace (old new : Entry) : Entry :=
  match old, new with
  | directory names, directory [] => directory names
  | _, new => new

/-- The entry with something put at the end of a chain of directories, which
are made where they are missing. -/
def put (e : Entry) (chain : List String) (what : Entry) : Entry :=
  match chain with
  | [] => e.replace what
  | name :: rest =>
    let names := match e with
      | directory names => names
      | _ => []
    match names.lookup name with
    | some old =>
      directory (names.map fun (k, v) => if k == name then (k, old.put rest what) else (k, v))
    | none => directory (names ++ [(name, (directory []).put rest what)])

end Entry

/-- A tree of files and the directory relative paths start from. -/
structure FileSystem where
  root : Entry
  current : List String

namespace FileSystem

/-- How many links one path may lead through. -/
def linkLimit : Nat := 40

/-- How many bytes a part of a path may have. -/
def partLimit : Nat := 255

/-- How many bytes a path may have that is looked up as a whole. -/
def pathLimit : Nat := 4095

/-- Whether a chain of names ends at a directory. -/
def isDirectoryAt (fs : FileSystem) (place : List String) : Bool :=
  match fs.root.at? place with
  | some (.directory _) => true
  | _ => false

/-- Follows the parts of a path from a place; gives the place they lead to,
as a chain of names without any link.  At a link it goes on as it is told,
with the place and the parts that the link leads to. -/
def followWith (fs : FileSystem) (jump : List String → List String → Except IoFault (List String))
    (place : List String) : List String → Except IoFault (List String)
  | [] => .ok place
  | part :: rest =>
    if !fs.isDirectoryAt place then .error .notDirectory
    else if part.isEmpty || part == "." then fs.followWith jump place rest
    else if part == ".." then fs.followWith jump place.dropLast rest
    else if partLimit < part.utf8ByteSize then .error .nameTooLong
    else
      match fs.root.at? (place ++ [part]) with
      | none => .error .notFound
      | some (.link target) =>
        jump (if Path.isAbsolute target then [] else place) (Path.parts target ++ rest)
      | some _ => fs.followWith jump (place ++ [part]) rest

/-- Follows the parts of a path from a place.  `links` links may be followed. -/
def follow (fs : FileSystem) (links : Nat) :
    List String → List String → Except IoFault (List String) :=
  match links with
  | 0 => fs.followWith fun _ _ => .error .tooManyLinks
  | links + 1 => fs.followWith (fs.follow links)

/-- The place a path leads to, found part by part, so that the path may have
any length. -/
def locate (fs : FileSystem) (path : String) : Except IoFault (List String) :=
  if path.toList.contains '\x00' then .error .nulByte
  else if path.isEmpty then .error .notFound
  else fs.follow linkLimit (if Path.isAbsolute path then [] else fs.current) (Path.parts path)

/-- The place a path leads to, looked up as a whole. -/
def resolve (fs : FileSystem) (path : String) : Except IoFault (List String) := do
  if pathLimit < path.utf8ByteSize && !path.toList.contains '\x00' then .error .nameTooLong
  fs.locate path

/-- What a path leads to. -/
def entry (fs : FileSystem) (path : String) : Except IoFault Entry := do
  let place ← fs.resolve path
  match fs.root.at? place with
  | some e => .ok e
  | none => .error .notFound

def isFile (fs : FileSystem) (path : String) : Bool :=
  match fs.entry path with
  | .ok (.file _) => true
  | _ => false

def isDirectory (fs : FileSystem) (path : String) : Bool :=
  match fs.entry path with
  | .ok (.directory _) => true
  | _ => false

/-- Whether the path leads to anything. -/
def holds (fs : FileSystem) (path : String) : Bool := (fs.entry path).isOk

/-- The absolute path without links that a path leads to. -/
def canonicalize (fs : FileSystem) (path : String) : Except IoFault String := do
  let place ← fs.locate path
  return "/" ++ "/".intercalate place

/-- The bytes of the file a path leads to. -/
def readBytes (fs : FileSystem) (path : String) : Except IoFault ByteArray := do
  match ← fs.entry path with
  | .file bytes => .ok bytes
  | _ => .error .isDirectory

/-- The text of a file, with what is no text replaced. -/
def readLossy (fs : FileSystem) (path : String) : Except IoFault String := do
  return Text.decodeLossy (← fs.readBytes path)

/-- The text of a file that holds nothing but text. -/
def readText (fs : FileSystem) (path : String) : Except IoFault String := do
  match String.fromUTF8? (← fs.readBytes path) with
  | some text => .ok text
  | none => .error .notUtf8

/-! ## Files below a directory -/

mutual
/-- The paths of the regular files below an entry at a path.  Links are not
followed, nor is a directory listed whose path is too long. -/
def filesBelow (path : String) : Entry → List String
  | .file _ => [path]
  | .directory names => if pathLimit < path.utf8ByteSize then [] else filesBelowList path names
  | .link _ => []

/-- The paths of the regular files below the names of a directory. -/
def filesBelowList (directory : String) : List (String × Entry) → List String
  | [] => []
  | (name, e) :: rest => filesBelow (Path.join directory name) e ++ filesBelowList directory rest
end

/-- The files at or below a path that pass a test, in the order of paths.  A
path that leads to a file gives just that, whatever the test says. -/
def collectPaths (fs : FileSystem) (accept : String → Bool) (root : String) : List String :=
  if fs.isFile root then [root]
  else
    match fs.entry root with
    | .ok e => ((filesBelow root e).filter accept).mergeSort (fun a b => !Path.before b a)
    | .error _ => []

end FileSystem
end SourceMetrics
