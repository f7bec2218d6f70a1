/-
# `Arguments` — what is asked for on the command line

There is one command, `scan`, with a path and options.  Verbosity may be
raised before the command and behind it.  Arguments are read one after the
other, and the first fault counts; but the value of an option that stands in
an argument of its own, and the path, are looked at only when the next
option, the next value or the end is reached (`ScanReading.settle`).
-/
namespace SourceMetrics.Command

inductive OutputFormat where
  | pretty
  | json
deriving DecidableEq, Repr

namespace OutputFormat

def name : OutputFormat → String
  | pretty => "pretty"
  | json => "json"

/-- The format of a name. -/
def ofName? (name : String) : Option OutputFormat := [pretty, json].find? (·.name == name)

end OutputFormat

/-- The arguments of the scan command. -/
structure ScanArguments where
  path : String
  config : Option String
  format : OutputFormat
  parallel : Bool
  /-- Whether comments before the first code count. -/
  noIgnoreHeader : Bool
deriving DecidableEq, Repr

/-- All arguments. -/
structure Arguments where
  verbose : Nat
  scan : ScanArguments
deriving DecidableEq, Repr

/-- Why there is nothing to run. -/
inductive ArgumentFault where
  /-- Nothing is asked for. -/
  | nothing
  | missingCommand
  | unknownCommand (name : String)
  | missingPath
  | unknownArgument (text : String)
  /-- An option has no value, or one that it does not take. -/
  | invalidValue (option : String)
  | repeatedOption (option : String)
  /-- A flag has a value. -/
  | unneededValue (option : String)
  /-- Help is asked for. -/
  | helpWanted
  /-- The version is asked for. -/
  | versionWanted
deriving DecidableEq, Repr

/-! ## The shape of an argument -/

inductive Shape where
  /-- Two hyphens alone: no options follow. -/
  | escape
  | long (name : String) (value : Option String)
  | short (letters : List Char)
  | plain
deriving DecidableEq, Repr

/-- A name and what follows the first equals sign. -/
def splitValue (text : List Char) : Shape :=
  let name := text.takeWhile (· ≠ '=')
  match text.drop name.length with
  | [] => .long (String.ofList name) none
  | _ :: value => .long (String.ofList name) (some (String.ofList value))

/-- The shape of an argument.  A hyphen alone is a value. -/
def shape (argument : String) : Shape :=
  match argument.toList with
  | ['-', '-'] => .escape
  | '-' :: '-' :: text => splitValue text
  | '-' :: c :: letters => .short (c :: letters)
  | _ => .plain

/-! ## Verbosity -/

/-- The verbosity where one more is asked for. -/
def moreVerbose (count : Option Nat) : Option Nat := some (min 255 (count.getD 0 + 1))

/-! ## The scan command -/

/-- The options of the scan command that have a value. -/
inductive ValueOption where
  | config
  | format
deriving DecidableEq, Repr

namespace ValueOption

def name : ValueOption → String
  | config => "--config"
  | format => "--format"

end ValueOption

/-- A value that has not been looked at. -/
inductive Pending where
  | path (value : String)
  | option (option : ValueOption) (value : Option String)
deriving DecidableEq, Repr

/-- What was read of the scan command's arguments. -/
structure ScanReading where
  verbose : Option Nat
  path : Option String
  config : Option String
  format : Option OutputFormat
  parallel : Bool
  noIgnoreHeader : Bool
  pending : Option Pending
deriving DecidableEq, Repr

namespace ScanReading

/-- Nothing read yet. -/
def start : ScanReading := ⟨none, none, none, none, false, false, none⟩

/-- Gives an option its value. -/
def setOption (s : ScanReading) (option : ValueOption) (value : String) :
    Except ArgumentFault ScanReading :=
  match option with
  | .config =>
    if s.config.isSome then .error (.repeatedOption option.name)
    else if value.isEmpty then .error (.invalidValue option.name)
    else .ok { s with config := some value }
  | .format =>
    if s.format.isSome then .error (.repeatedOption option.name)
    else
      match OutputFormat.ofName? value with
      | some format => .ok { s with format := some format }
      | none => .error (.invalidValue option.name)

/-- Looks at the value that is pending. -/
def settle (s : ScanReading) : Except ArgumentFault ScanReading :=
  let settled := { s with pending := none }
  match s.pending with
  | none => .ok settled
  | some (.path value) =>
    if value.isEmpty then .error (.invalidValue "<PATH>")
    else .ok { settled with path := some value }
  | some (.option option none) => .error (.invalidValue option.name)
  | some (.option option (some value)) => settled.setOption option value

/-- Whether the path has been given. -/
def hasPath (s : ScanReading) : Bool :=
  s.path.isSome ||
    match s.pending with
    | some (.path _) => true
    | _ => false

/-- Reads a value for the path. -/
def readPath (s : ScanReading) (value : String) : Except ArgumentFault ScanReading :=
  if s.hasPath then .error (.unknownArgument value)
  else do return { ← s.settle with pending := some (.path value) }

/-- Reads a value for the option that waits for one, or else for the
path. -/
def readValue (s : ScanReading) (value : String) : Except ArgumentFault ScanReading :=
  match s.pending with
  | some (.option option none) => .ok { s with pending := some (.option option (some value)) }
  | _ => s.readPath value

/-- Reads an option, with the value that is attached to it. -/
def readOption (s : ScanReading) (option : ValueOption) (value : Option String) :
    Except ArgumentFault ScanReading := do
  let s ← s.settle
  match value with
  | some value => s.setOption option value
  | none => return { s with pending := some (.option option none) }

def readVerbose (s : ScanReading) : Except ArgumentFault ScanReading := do
  let s ← s.settle
  return { s with verbose := moreVerbose s.verbose }

def readHelp (s : ScanReading) : Except ArgumentFault ScanReading := do
  let _ ← s.settle
  .error .helpWanted

def readParallel (s : ScanReading) : Except ArgumentFault ScanReading := do
  let s ← s.settle
  if s.parallel then .error (.repeatedOption "--parallel") else return { s with parallel := true }

def readNoIgnoreHeader (s : ScanReading) : Except ArgumentFault ScanReading := do
  let s ← s.settle
  if s.noIgnoreHeader then .error (.repeatedOption "--no-ignore-header")
  else return { s with noIgnoreHeader := true }

/-- Reads a flag, which takes no value. -/
def readFlag (name : String) (value : Option String)
    (read : Except ArgumentFault ScanReading) : Except ArgumentFault ScanReading :=
  if value.isSome then .error (.unneededValue name) else read

/-- Reads an option with a long name. -/
def readLong (s : ScanReading) (name : String) (value : Option String) :
    Except ArgumentFault ScanReading :=
  match name with
  | "config" => s.readOption .config value
  | "format" => s.readOption .format value
  | "parallel" => readFlag "--parallel" value s.readParallel
  | "no-ignore-header" => readFlag "--no-ignore-header" value s.readNoIgnoreHeader
  | "verbose" => readFlag "--verbose" value s.readVerbose
  | "help" => readFlag "--help" value s.readHelp
  | _ => .error (.unknownArgument ("--" ++ name))

/-- The value attached to a letter; an equals sign before it is dropped. -/
def attached : List Char → Option String
  | [] => none
  | '=' :: value => some (String.ofList value)
  | value => some (String.ofList value)

/-- Reads options named by letters. -/
def readShort (s : ScanReading) : List Char → Except ArgumentFault ScanReading
  | [] => .ok s
  | 'v' :: rest => do (← s.readVerbose).readShort rest
  | 'h' :: _ => s.readHelp
  | 'c' :: rest => s.readOption .config (attached rest)
  | 'f' :: rest => s.readOption .format (attached rest)
  | c :: _ => .error (.unknownArgument (String.ofList ['-', c]))

/-- Reads the arguments behind two hyphens. -/
def readPaths (s : ScanReading) : List String → Except ArgumentFault ScanReading
  | [] => .ok s
  | argument :: rest => do (← s.readPath argument).readPaths rest

/-- Reads the arguments behind the command. -/
def readAll (s : ScanReading) : List String → Except ArgumentFault ScanReading
  | [] => .ok s
  | argument :: rest =>
    match shape argument with
    | .escape => s.readPaths rest
    | .long name value => do (← s.readLong name value).readAll rest
    | .short letters => do (← s.readShort letters).readAll rest
    | .plain => do (← s.readValue argument).readAll rest

/-- What was asked for, with the verbosity before the command. -/
def finish (s : ScanReading) (before : Option Nat) : Except ArgumentFault Arguments := do
  let s ← s.settle
  match s.path with
  | none => .error .missingPath
  | some path =>
    return ⟨(s.verbose.or before).getD 0,
      ⟨path, s.config, s.format.getD .pretty, s.parallel, s.noIgnoreHeader⟩⟩

end ScanReading

/-! ## The command line -/

namespace Arguments

/-- The names of the commands. -/
def commands : List String := ["scan", "help"]

/-- Reads the name of the command that help is wanted for. -/
def readHelp : List String → ArgumentFault
  | [] => .helpWanted
  | [name] => if commands.contains name then .helpWanted else .unknownCommand name
  | name :: other :: _ =>
    if commands.contains name then .unknownCommand other else .unknownCommand name

/-- The fault where the arguments end without a command. -/
def withoutCommand (verbose : Option Nat) : ArgumentFault :=
  if verbose.isSome then .missingCommand else .nothing

/-- The fault of the arguments behind two hyphens where a command is
needed. -/
def readEscaped (verbose : Option Nat) : List String → ArgumentFault
  | [] => withoutCommand verbose
  | name :: _ => if commands.contains name then .unknownArgument name else .unknownCommand name

/-- Reads options before the command that are named by letters. -/
def readShort (verbose : Option Nat) : List Char → Except ArgumentFault (Option Nat)
  | [] => .ok verbose
  | 'v' :: rest => readShort (moreVerbose verbose) rest
  | 'h' :: _ => .error .helpWanted
  | 'V' :: _ => .error .versionWanted
  | c :: _ => .error (.unknownArgument (String.ofList ['-', c]))

/-- Reads an option before the command with a long name. -/
def readLong (verbose : Option Nat) (name : String) (value : Option String) :
    Except ArgumentFault (Option Nat) :=
  let read : Option (Except ArgumentFault (Option Nat)) := match name with
    | "verbose" => some (.ok (moreVerbose verbose))
    | "help" => some (.error .helpWanted)
    | "version" => some (.error .versionWanted)
    | _ => none
  match read with
  | none => .error (.unknownArgument ("--" ++ name))
  | some read => if value.isSome then .error (.unneededValue ("--" ++ name)) else read

/-- Reads the arguments from the first on, up to the command and behind
it. -/
def readFrom (verbose : Option Nat) : List String → Except ArgumentFault Arguments
  | [] => .error (withoutCommand verbose)
  | argument :: rest =>
    if argument == "scan" then do (← ScanReading.start.readAll rest).finish verbose
    else if argument == "help" then .error (readHelp rest)
    else
      match shape argument with
      | .escape => .error (readEscaped verbose rest)
      | .long name value => do readFrom (← readLong verbose name value) rest
      | .short letters => do readFrom (← readShort verbose letters) rest
      | .plain => .error (.unknownCommand argument)

/-- Reads a command line, whose first word is the program's name. -/
def read (line : List String) : Except ArgumentFault Arguments := readFrom none line.tail

end Arguments
end SourceMetrics.Command
