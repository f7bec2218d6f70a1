/-
# `Glob` — patterns for paths

    ?         any one byte
    *         any bytes, slashes among them
    **        at the border of components: any number of components
    [a-z!]    a byte out of a class;  [!a-z] or [^a-z] one outside of it
    {a,b}     one of several patterns, which may nest
    \         takes the next character as it stands

A pattern is read from left to right.  Two stars count as a component
wildcard only where components border on both sides: at the start or behind
a slash, and at the end or before a slash.  Within braces the border is
also at the brace and the comma.
-/
namespace SourceMetrics.Glob

/-- A part of a pattern. -/
inductive Token where
  | literal (c : Char)
  /-- Any one byte. -/
  | any
  /-- Any bytes. -/
  | star
  /-- Any number of components at the start. -/
  | componentsBefore
  /-- Any number of components at the end. -/
  | componentsAfter
  /-- Any number of components in between. -/
  | componentsBetween
  | cls (negated : Bool) (ranges : List (Char × Char))
  | alternatives (branches : List (List Token))

/-- Why a pattern cannot be read. -/
inductive Fault where
  | unclosedClass
  | invalidRange (low high : Char)
  | unopenedBrace
  | unclosedBrace
  | danglingEscape
deriving DecidableEq, Repr

namespace Fault

def message : Fault → String
  | unclosedClass => "unclosed character class; missing ']'"
  | invalidRange low high =>
    "invalid range; '" ++ String.singleton low ++ "' > '" ++ String.singleton high ++ "'"
  | unopenedBrace =>
    "unopened alternate group; missing '\x7b' (maybe escape '\x7d' with '[\x7d]'?)"
  | unclosedBrace =>
    "unclosed alternate group; missing '\x7d' (maybe escape '\x7b' with '[\x7b]'?)"
  | danglingEscape => "dangling '\\'"

end Fault

/-! ## Classes -/

/-- Ends the last range of a class, the latest range being first. -/
def endRange (high : Char) : List (Char × Char) → Except Fault (List (Char × Char))
  | (low, _) :: rest =>
    if high < low then .error (.invalidRange low high) else .ok ((low, high) :: rest)
  | [] => .ok [(high, high)]

/-- The ranges of a class, the latest first, and what follows it.  `isFirst`
says that nothing of the class was read, `inRange` that a hyphen has opened
a range. -/
def classRanges (isFirst inRange : Bool) (ranges : List (Char × Char)) :
    List Char → Except Fault (List (Char × Char) × List Char)
  | [] => .error .unclosedClass
  | c :: rest =>
    if c = ']' && !isFirst then
      .ok ((if inRange then ('-', '-') :: ranges else ranges), rest)
    else if c = '-' && !isFirst && !inRange then classRanges false true ranges rest
    else if inRange then
      match endRange c ranges with
      | .error e => .error e
      | .ok ranges => classRanges false false ranges rest
    else classRanges false false ((c, c) :: ranges) rest

/-- The class that follows an opening bracket, and what follows the class. -/
def readClass : List Char → Except Fault (Token × List Char)
  | c :: rest =>
    if c = '!' || c = '^' then
      (classRanges true false [] rest).map fun (ranges, after) => (.cls true ranges.reverse, after)
    else
      (classRanges true false [] (c :: rest)).map fun (ranges, after) =>
        (.cls false ranges.reverse, after)
  | [] => .error .unclosedClass

theorem length_of_classRanges {isFirst inRange : Bool} {ranges out : List (Char × Char)}
    {cs after : List Char} (h : classRanges isFirst inRange ranges cs = .ok (out, after)) :
    after.length < cs.length := by
  induction cs generalizing isFirst inRange ranges with
  | nil => simp [classRanges] at h
  | cons c rest ih =>
    simp only [classRanges] at h
    split at h
    · simp only [Except.ok.injEq, Prod.mk.injEq] at h
      simp [← h.2]
    · split at h
      · have := ih h; simp only [List.length_cons]; omega
      · split at h
        · split at h
          · simp at h
          · have := ih h; simp only [List.length_cons]; omega
        · have := ih h; simp only [List.length_cons]; omega

theorem length_of_readClass {t : Token} {cs after : List Char}
    (h : readClass cs = .ok (t, after)) : after.length < cs.length := by
  match cs with
  | [] => simp [readClass] at h
  | c :: rest =>
    simp only [readClass] at h
    split at h
    · cases hc : classRanges true false [] rest with
      | error e => simp [hc, Except.map] at h
      | ok r =>
        obtain ⟨ranges, after'⟩ := r
        simp only [hc, Except.map, Except.ok.injEq, Prod.mk.injEq] at h
        have := length_of_classRanges hc
        simp only [List.length_cons, ← h.2]; omega
    · cases hc : classRanges true false [] (c :: rest) with
      | error e => simp [hc, Except.map] at h
      | ok r =>
        obtain ⟨ranges, after'⟩ := r
        simp only [hc, Except.map, Except.ok.injEq, Prod.mk.injEq] at h
        have := length_of_classRanges hc
        simp only [← h.2]; omega

/-! ## Whole patterns -/

/-- A group of alternatives that is being read. -/
structure Group where
  /-- The finished branches. -/
  branches : List (List Token)
  /-- What stands before the group, the latest first. -/
  before : List Token

/-- How far a pattern was read. -/
structure Reading where
  /-- The tokens of the innermost branch, the latest first. -/
  current : List Token
  /-- The open groups, the innermost first. -/
  groups : List Group

namespace Reading

/-- Nothing read yet. -/
def start : Reading := ⟨[], []⟩

def push (r : Reading) (t : Token) : Reading := { r with current := t :: r.current }

/-- Opens a group. -/
def openGroup (r : Reading) : Reading := ⟨[], ⟨[], r.current⟩ :: r.groups⟩

/-- A comma: the next branch of the innermost group, or just a comma. -/
def comma (r : Reading) : Reading :=
  match r.groups with
  | [] => r.push (.literal ',')
  | g :: rest => ⟨[], { g with branches := g.branches ++ [r.current.reverse] } :: rest⟩

/-- Closes the innermost group. -/
def closeGroup (r : Reading) : Except Fault Reading :=
  match r.groups with
  | [] => .error .unopenedBrace
  | g :: rest =>
    .ok ⟨.alternatives (g.branches ++ [r.current.reverse]) :: g.before, rest⟩

/-- Two stars within a component. -/
def twoStars (r : Reading) : Reading := (r.push .star).push .star

/-- Two stars behind a border, which take the place of the slash before
them. -/
def components (r : Reading) (atEnd : Bool) : Reading :=
  let wildcard : Token := if atEnd then .componentsAfter else .componentsBetween
  match r.current with
  | .componentsBefore :: _ | .componentsAfter :: _ => r
  | _ :: rest => { r with current := wildcard :: rest }
  | [] => r.push wildcard

/-- Whether a border lies before two stars, given the character there. -/
def hasBorderBefore (r : Reading) (previous : Option Char) : Bool :=
  previous == some '/' ||
    (!r.groups.isEmpty && (previous == some ',' || previous == some '\x7b'))

/-- What two stars stand for, given the character before them and what
follows; and whether they take the slash that follows with them. -/
def stars (r : Reading) (previous : Option Char) (following : List Char) : Reading × Bool :=
  if r.current.isEmpty then
    match following.head? with
    | none => (r.push .componentsBefore, false)
    | some '/' => (r.push .componentsBefore, true)
    | some _ => (r.twoStars, false)
  else if !r.hasBorderBefore previous then (r.twoStars, false)
  else
    match following.head? with
    | none => (r.components true, false)
    | some '/' => (r.components false, true)
    | some c =>
      if !r.groups.isEmpty && (c = ',' || c = '\x7d') then (r.components true, false)
      else (r.twoStars, false)

/-- The tokens, once everything was read. -/
def finish (r : Reading) : Except Fault (List Token) :=
  match r.groups with
  | [] => .ok r.current.reverse
  | _ :: _ => .error .unclosedBrace

end Reading

/-- Goes on reading a pattern behind a character. -/
def readFrom (previous : Option Char) (r : Reading) (cs : List Char) :
    Except Fault (List Token) :=
  match cs with
  | [] => r.finish
  | '*' :: '*' :: rest =>
    match r.stars previous rest with
    | (r, true) => readFrom (some '/') r (rest.drop 1)
    | (r, false) => readFrom (some '*') r rest
  | '[' :: rest =>
    match _h : readClass rest with
    | .error e => .error e
    | .ok (t, after) => readFrom (some ']') (r.push t) after
  | '\\' :: rest =>
    match rest with
    | [] => .error .danglingEscape
    | c :: rest => readFrom (some c) (r.push (.literal c)) rest
  | c :: rest =>
    if c = '\x7b' then readFrom (some c) r.openGroup rest
    else if c = '\x7d' then
      match r.closeGroup with
      | .error e => .error e
      | .ok r => readFrom (some c) r rest
    else if c = ',' then readFrom (some c) r.comma rest
    else if c = '?' then readFrom (some c) (r.push .any) rest
    else if c = '*' then readFrom (some c) (r.push .star) rest
    else readFrom (some c) (r.push (.literal c)) rest
termination_by cs.length
decreasing_by
  all_goals simp only [List.length_cons, List.length_drop]
  all_goals first | omega | (have shorter := length_of_readClass _h; omega)

/-- Reads a pattern. -/
def read (pattern : String) : Except Fault (List Token) :=
  readFrom none .start pattern.toList

/-- What is said about a pattern that cannot be read. -/
def describe (pattern : String) (fault : Fault) : String :=
  "error parsing glob '" ++ pattern ++ "': " ++ fault.message

end SourceMetrics.Glob
