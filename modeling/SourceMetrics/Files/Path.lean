/-
# Paths

A path is a text whose parts are parted by slashes.  Two readings of it are
used: the parts as they stand, which lead to a file, and its components,
where empty parts and dots within the path are left out.  Paths are ordered
by their components, so `a/b` comes before `a-b`.
-/
namespace SourceMetrics.Path

/-- A component of a path, the first constructor first in the order of
paths. -/
inductive Component where
  | root
  | here
  | up
  | name (text : String)
deriving DecidableEq, Repr

namespace Component

/-- The position of the kind of component in the order. -/
def rank : Component → Nat
  | root => 0
  | here => 1
  | up => 2
  | name _ => 3

/-- The text of a name. -/
def text : Component → String
  | name text => text
  | _ => ""

/-- Whether one component comes before another. -/
def before (a b : Component) : Bool :=
  a.rank < b.rank || (a.rank = b.rank && a.text < b.text)

end Component

/-- The parts of a list of characters between slashes, given the reverse of
what was read of the first. -/
def partsFrom (reversed : List Char) : List Char → List (List Char)
  | [] => [reversed.reverse]
  | c :: rest =>
    if c = '/' then reversed.reverse :: partsFrom [] rest else partsFrom (c :: reversed) rest

/-- The parts of a path between its slashes. -/
def parts (path : String) : List String := (partsFrom [] path.toList).map String.ofList

/-- Whether the path starts at the root of the file system. -/
def isAbsolute (path : String) : Bool := path.toList.head? == some '/'

/-- The component of a part that is not the first. -/
def component? (part : String) : Option Component :=
  if part.isEmpty || part == "." then none
  else if part == ".." then some .up
  else some (.name part)

/-- The components of a path.  A dot counts only at the start. -/
def components (path : String) : List Component :=
  match parts path with
  | [] => []
  | first :: rest =>
    let start :=
      if first.isEmpty then (if rest.isEmpty then none else some .root)
      else if first == "." then some .here
      else component? first
    start.toList ++ rest.filterMap component?

/-- Whether a list of components comes strictly before another. -/
def componentsBefore : List Component → List Component → Bool
  | [], [] => false
  | [], _ :: _ => true
  | _ :: _, [] => false
  | a :: as, b :: bs => a.before b || (a == b && componentsBefore as bs)

/-- Whether a path comes strictly before another. -/
def before (a b : String) : Bool := componentsBefore (components a) (components b)

/-- The name a path ends in. -/
def fileName? (path : String) : Option String :=
  match (components path).getLast? with
  | some (.name text) => some text
  | _ => none

/-- What follows the last dot of a name.  A name whose only dot is its first
character has no extension. -/
def extensionOf (name : String) : Option String :=
  let reversed := name.toList.reverse
  let ext := reversed.takeWhile (· ≠ '.')
  match reversed.drop ext.length with
  | [] | [_] => none
  | _ :: _ :: _ => some (String.ofList ext.reverse)

/-- The extension of a path. -/
def extension? (path : String) : Option String := (fileName? path).bind extensionOf

/-- The path of a name within a directory. -/
def join (directory name : String) : String :=
  if directory.isEmpty || directory.toList.getLast? == some '/' then directory ++ name
  else directory ++ "/" ++ name

/-- The directory that holds what an absolute path leads to. -/
def parent (path : String) : String :=
  let directory := "/".intercalate (parts path).dropLast
  if directory.isEmpty then "/" else directory

end SourceMetrics.Path
