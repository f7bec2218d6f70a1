/-
# Reading a report

A text is read here by the rules of structured values alone, whoever wrote
it.  First its characters become symbols, and then the symbols a value:

    characters   marks, texts between quotation marks, words; blanks are left out
    symbols      a value, or a list or an object around values, to any depth

The characters are gone through once, with the place that each of them stands
in (`Place.next`).  The symbols are gone through once, with the lists and
objects that are still open on a stack (`step`).

What is printed over several lines reads as the value it was printed for
(`read?_pretty`): by induction on the value, its text leads from a place where
a value is awaited to the one behind it, in any list or object and with any
text after it (`readFrom_pretty`).  That a number was counted or measured is
not told; it reads as a number either way (`readAs`).
-/
import SourceMetrics.Proofs.Decimal.Reading
import SourceMetrics.Proofs.Report.Structured
import SourceMetrics.Proofs.Report.Trees

namespace SourceMetrics

namespace Json

open Text

/-! ## Symbols -/

/-- What a text consists of, besides blanks. -/
inductive Symbol where
  | mark (c : Char)
  | text (s : String)
  | word (cs : List Char)
  /-- What stands where it must not, or has no end. -/
  | stray
deriving DecidableEq, Repr

/-- Where a character stands: between symbols, or in a word, a text, an escape
or the code of a character, with what was read of them so far. -/
inductive Place where
  | between
  | word (before : List Char)
  | text (before : List Char)
  | escape (before : List Char)
  | code (before : List Char) (value : Nat) (left : Nat)

def marks : List Char := ['\x7b', '\x7d', '[', ']', ':', ',']

def blanks : List Char := [' ', '\t', '\n', '\r']

/-- The characters that an escape is one letter for. -/
def unescaped : Char → Option Char
  | '"' => some '"'
  | '\\' => some '\\'
  | '/' => some '/'
  | 'b' => some '\x08'
  | 'f' => some '\x0c'
  | 'n' => some '\n'
  | 'r' => some '\r'
  | 't' => some '\t'
  | _ => none

/-- The value of a digit of base sixteen. -/
def hexDigit? (c : Char) : Option Nat :=
  if c.isDigit then some (c.toNat - '0'.toNat)
  else if 'a' ≤ c ∧ c ≤ 'f' then some (c.toNat - 'a'.toNat + 10)
  else if 'A' ≤ c ∧ c ≤ 'F' then some (c.toNat - 'A'.toNat + 10)
  else none

namespace Place

/-- What a character between symbols comes to. -/
def start (c : Char) : Option (List Symbol × Place) :=
  if c ∈ blanks then some ([], between)
  else if c ∈ marks then some ([.mark c], between)
  else if c = '"' then some ([], text [])
  else if isWordChar c then some ([], word [c])
  else none

/-- A character of a code, before so many more. -/
def nextCode (before : List Char) (value left digit : Nat) : Option (List Symbol × Place) :=
  let value := 16 * value + digit
  match left with
  | left + 1 => some ([], code before value left)
  | 0 => if value.isValidChar then some ([], text (before ++ [Char.ofNat value])) else none

/-- What a character in a place comes to: the symbols that end there, and the
place behind it. -/
def next : Place → Char → Option (List Symbol × Place)
  | between, c => start c
  | word before, c =>
    if isWordChar c then some ([], word (before ++ [c]))
    else (start c).map fun (found, place) => (.word before :: found, place)
  | text before, c =>
    if c = '"' then some ([.text (String.ofList before)], between)
    else if c = '\\' then some ([], escape before)
    else if c.toNat < 0x20 then none
    else some ([], text (before ++ [c]))
  | escape before, c =>
    if c = 'u' then some ([], code before 0 3)
    else (unescaped c).map fun d => ([], text (before ++ [d]))
  | code before value left, c => (hexDigit? c).bind (nextCode before value left)

/-- What ends with the text. -/
def last : Place → List Symbol
  | between => []
  | word before => [.word before]
  | _ => [.stray]

end Place

/-- The symbols of a text that starts in a place. -/
def symbols (place : Place) : List Char → List Symbol
  | [] => place.last
  | c :: cs =>
    match place.next c with
    | some (found, behind) => found ++ symbols behind cs
    | none => place.last ++ [.stray]

/-! ## Values -/

/-- A list or an object that is open: what was read of it, and the name of the
value that is being read. -/
inductive Frame where
  | list (items : List (Json ℚ))
  | object (members : List (String × Json ℚ)) (name : String)

/-- What has been read, within the lists and objects that are open, the
innermost first. -/
inductive Progress where
  /-- A value is to come. -/
  | value (frames : List Frame)
  /-- The first value of a list is to come, or its end. -/
  | item (frames : List Frame)
  /-- The first name of an object is to come, or its end. -/
  | member (frames : List Frame)
  /-- A name is to come. -/
  | name (frames : List Frame) (members : List (String × Json ℚ))
  /-- A colon is to come. -/
  | colon (frames : List Frame) (members : List (String × Json ℚ)) (name : String)
  /-- A value has been read. -/
  | behind (frames : List Frame) (v : Json ℚ)

/-- What a word stands for. -/
def ofWord? (cs : List Char) : Option (Json ℚ) :=
  match Decimal.number? cs with
  | some x => some (amount x)
  | none =>
    if cs = "null".toList then some null
    else if cs = "true".toList then some (bool true)
    else if cs = "false".toList then some (bool false)
    else none

/-- A symbol where a value is to come. -/
def begin (frames : List Frame) : Symbol → Option Progress
  | .word cs => (ofWord? cs).map (.behind frames)
  | .text s => some (.behind frames (text s))
  | .mark '[' => some (.item frames)
  | .mark '\x7b' => some (.member frames)
  | _ => none

/-- A symbol behind a value. -/
def proceed (v : Json ℚ) : List Frame → Symbol → Option Progress
  | .list items :: frames, .mark ',' => some (.value (.list (items ++ [v]) :: frames))
  | .list items :: frames, .mark ']' => some (.behind frames (list (items ++ [v])))
  | .object members name :: frames, .mark ',' => some (.name frames (members ++ [(name, v)]))
  | .object members name :: frames, .mark '\x7d' =>
    some (.behind frames (object (members ++ [(name, v)])))
  | _, _ => none

/-- What a symbol comes to. -/
def step : Progress → Symbol → Option Progress
  | .value frames, s => begin frames s
  | .item frames, s =>
    if s = .mark ']' then some (.behind frames (list [])) else begin (.list [] :: frames) s
  | .member frames, .mark '\x7d' => some (.behind frames (object []))
  | .member frames, .text name => some (.colon frames [] name)
  | .name frames members, .text name => some (.colon frames members name)
  | .colon frames members name, .mark ':' => some (.value (.object members name :: frames))
  | .behind frames v, s => proceed v frames s
  | _, _ => none

/-- What is read of a text. -/
def readFrom (progress : Progress) (cs : List Char) : Option Progress :=
  (symbols .between cs).foldlM step progress

/-- The value that is all of a text, if the text is well formed. -/
def read? (s : String) : Option (Json ℚ) :=
  match readFrom (.value []) s.toList with
  | some (.behind [] v) => some v
  | _ => none

/-! ## Symbols are read -/

section
variable {cs : List Char}

theorem symbols_mark {c : Char} (h : c ∈ marks) :
    symbols .between (c :: cs) = .mark c :: symbols .between cs := by
  have hapart : marks.all (· ∉ blanks) = true := by decide
  have hblank : c ∉ blanks := of_decide_eq_true (List.all_eq_true.mp hapart c h)
  rw [symbols, Place.next, Place.start, if_neg hblank, if_pos h]
  rfl

theorem symbols_blank {c : Char} (h : c ∈ blanks) :
    symbols .between (c :: cs) = symbols .between cs := by
  rw [symbols, Place.next, Place.start, if_pos h]
  rfl

theorem toList_newLine (depth : Nat) :
    (newLine depth).toList = '\n' :: List.replicate (2 * depth) ' ' := by
  rw [newLine, String.toList_append]
  exact congrArg ('\n' :: ·) String.toList_ofList

theorem symbols_newLine (depth : Nat) :
    symbols .between ((newLine depth).toList ++ cs) = symbols .between cs := by
  have hindent : ∀ n, symbols .between (List.replicate n ' ' ++ cs) = symbols .between cs := by
    intro n
    induction n with
    | zero => rfl
    | succ n ih =>
        rw [List.replicate_succ, List.cons_append, symbols_blank (by decide), ih]
  rw [toList_newLine, List.cons_append, symbols_blank (by decide), hindent]

theorem Place.start_of_isWordChar {c : Char} (h : isWordChar c = true) :
    start c = some ([], word [c]) := by
  have hothers : ('"' :: (blanks ++ marks)).all (!isWordChar ·) = true := by decide
  have hne : c ∉ '"' :: (blanks ++ marks) := fun hmem => by
    have hnot := List.all_eq_true.mp hothers c hmem
    rw [h] at hnot
    cases hnot
  rw [List.mem_cons, List.mem_append, not_or, not_or] at hne
  rw [start, if_neg hne.2.1, if_neg hne.2.2, if_neg hne.1, if_pos h]

/-- A word that has begun is read to its end. -/
theorem symbols_word {before w : List Char} (hw : ∀ c ∈ w, isWordChar c = true)
    (hrest : Stops isWordChar cs) :
    symbols (.word before) (w ++ cs) = .word (before ++ w) :: symbols .between cs := by
  induction w generalizing before with
  | nil =>
      rw [List.nil_append, List.append_nil]
      cases cs with
      | nil => rfl
      | cons c cs =>
          rw [symbols, symbols, Place.next, Place.next, hrest c cs rfl, if_neg Bool.false_ne_true]
          cases Place.start c <;> rfl
  | cons c w ih =>
      obtain ⟨hc, hw⟩ := List.forall_mem_cons.mp hw
      rw [List.cons_append, symbols, Place.next, if_pos hc]
      show symbols (.word (before ++ [c])) (w ++ cs) = _
      rw [ih hw, List.append_assoc]
      rfl

theorem symbols_of_isWord {w : String} (hw : IsWord w) (hrest : Stops isWordChar cs) :
    symbols .between (w.toList ++ cs) = .word w.toList :: symbols .between cs := by
  obtain ⟨c, tail, hcons⟩ := List.exists_cons_of_ne_nil hw.ne_nil
  have hchars := hw.chars
  rw [hcons] at hchars ⊢
  obtain ⟨hc, htail⟩ := List.forall_mem_cons.mp hchars
  rw [List.cons_append, symbols, Place.next, Place.start_of_isWordChar hc]
  show symbols (.word [c]) (tail ++ cs) = _
  rw [symbols_word htail hrest]
  rfl

/-- The escape of a character reads as the character. -/
theorem symbols_escapedChar (before : List Char) (c : Char) :
    symbols (.text before) (escapedChar c ++ cs) = symbols (.text (before ++ [c])) cs := by
  by_cases hplain : IsPlain c
  · obtain ⟨hquote, hslash, hlarge⟩ := hplain
    rw [escapedChar_of_isPlain ⟨hquote, hslash, hlarge⟩, List.singleton_append, symbols,
      Place.next, if_neg hquote, if_neg hslash, if_neg (Nat.not_lt.mpr hlarge)]
    rfl
  · have hspecials : ∀ c ∈ specials, symbols (.text before) (escapedChar c ++ cs) =
        symbols (.text (before ++ [c])) cs := by
      rw [specials, List.forall_mem_cons, List.forall_mem_cons, List.forall_mem_map]
      refine ⟨rfl, rfl, fun n hn => ?_⟩
      have hsmall := List.mem_range.mp hn
      interval_cases n <;> rfl
    exact hspecials c (mem_specials_of_not_isPlain hplain)

/-- A text between quotation marks is read to its end. -/
theorem symbols_escaped (s : String) :
    symbols .between ((escaped s).toList ++ cs) = .text s :: symbols .between cs := by
  have hbody : ∀ before rest : List Char, symbols (.text before)
      (rest.flatMap escapedChar ++ '"' :: cs) =
        .text (String.ofList (before ++ rest)) :: symbols .between cs := by
    intro before rest
    induction rest generalizing before with
    | nil =>
        rw [List.append_nil]
        rfl
    | cons c rest ih =>
        rw [List.flatMap_cons, List.append_assoc, symbols_escapedChar, ih, List.append_assoc,
          List.singleton_append]
  have hread := hbody [] s.toList
  rw [List.nil_append, String.ofList_toList] at hread
  rw [toList_escaped, List.cons_append, List.append_assoc]
  exact hread

end

/-! ## Values are read -/

mutual
/-- What a value reads as, where measured numbers read as given. -/
def readAs {α : Type} (f : α → Json ℚ) : Json α → Json ℚ
  | null => null
  | bool b => bool b
  | count n => amount n
  | amount x => f x
  | text s => text s
  | list items => list (readItemsAs f items)
  | object members => object (readMembersAs f members)

/-- The items of a list. -/
def readItemsAs {α : Type} (f : α → Json ℚ) : List (Json α) → List (Json ℚ)
  | [] => []
  | v :: rest => readAs f v :: readItemsAs f rest

/-- The members of an object. -/
def readMembersAs {α : Type} (f : α → Json ℚ) :
    List (String × Json α) → List (String × Json ℚ)
  | [] => []
  | (k, v) :: rest => (k, readAs f v) :: readMembersAs f rest
end

section
variable {α : Type} {number : α → String}

theorem toList_colonBlank : ": ".toList = [':', ' '] := rfl

theorem toList_pretty_list_cons (depth : Nat) (v : Json α) (rest : List (Json α)) :
    ((list (v :: rest)).pretty number depth).toList =
      '[' :: ((newLine (depth + 1)).toList ++ ((v.pretty number (depth + 1)).toList ++
        ((prettyItems number (depth + 1) rest).toList ++ ((newLine depth).toList ++ [']'])))) := by
  rw [pretty]
  simp only [String.toList_append, toList_openBracket, toList_closeBracket, List.append_assoc,
    List.cons_append, List.nil_append]

theorem toList_pretty_object_cons (depth : Nat) (k : String) (v : Json α)
    (rest : List (String × Json α)) :
    ((object ((k, v) :: rest)).pretty number depth).toList =
      '\x7b' :: ((newLine (depth + 1)).toList ++ ((escaped k).toList ++ (':' :: ' ' ::
        ((v.pretty number (depth + 1)).toList ++
          ((prettyMembers number (depth + 1) rest).toList ++
            ((newLine depth).toList ++ ['\x7d'])))))) := by
  rw [pretty]
  simp only [String.toList_append, toList_openBrace, toList_closeBrace, toList_colonBlank,
    List.append_assoc, List.cons_append, List.nil_append]

theorem toList_prettyItems_cons (depth : Nat) (v : Json α) (rest : List (Json α)) :
    (prettyItems number depth (v :: rest)).toList =
      ',' :: ((newLine depth).toList ++
        ((v.pretty number depth).toList ++ (prettyItems number depth rest).toList)) := by
  rw [prettyItems]
  simp only [String.toList_append, toList_comma, List.append_assoc, List.cons_append,
    List.nil_append]

theorem toList_prettyMembers_cons (depth : Nat) (k : String) (v : Json α)
    (rest : List (String × Json α)) :
    (prettyMembers number depth ((k, v) :: rest)).toList =
      ',' :: ((newLine depth).toList ++ ((escaped k).toList ++ (':' :: ' ' ::
        ((v.pretty number depth).toList ++ (prettyMembers number depth rest).toList)))) := by
  rw [prettyMembers]
  simp only [String.toList_append, toList_comma, toList_colonBlank, List.append_assoc,
    List.cons_append, List.nil_append]

/-- What stands behind an item on its lines does not go on with it. -/
theorem stops_prettyItems (depth depth' : Nat) (rest : List (Json α)) (r : List Char) :
    Stops isWordChar
      ((prettyItems number depth rest).toList ++ ((newLine depth').toList ++ r)) := by
  cases rest with
  | nil =>
      rw [prettyItems, toList_newLine]
      exact stops_cons (by decide)
  | cons v rest =>
      rw [toList_prettyItems_cons, List.cons_append]
      exact stops_cons (by decide)

/-- What stands behind a member on its lines does not go on with it. -/
theorem stops_prettyMembers (depth depth' : Nat) (rest : List (String × Json α)) (r : List Char) :
    Stops isWordChar
      ((prettyMembers number depth rest).toList ++ ((newLine depth').toList ++ r)) := by
  cases rest with
  | nil =>
      rw [prettyMembers, toList_newLine]
      exact stops_cons (by decide)
  | cons member rest =>
      obtain ⟨k, v⟩ := member
      rw [toList_prettyMembers_cons, List.cons_append]
      exact stops_cons (by decide)

end

/-! Each symbol makes one step, and blanks make none. -/

section
variable {progress behind : Progress} {frames : List Frame} {cs : List Char}

theorem readFrom_of_symbols {s : Symbol} {rest : List Char}
    (hs : symbols .between cs = s :: symbols .between rest) (h : step progress s = some behind) :
    readFrom progress cs = readFrom behind rest := by
  rw [readFrom, hs, List.foldlM_cons, h]
  rfl

theorem readFrom_mark {c : Char} (hc : c ∈ marks) (h : step progress (.mark c) = some behind) :
    readFrom progress (c :: cs) = readFrom behind cs :=
  readFrom_of_symbols (symbols_mark hc) h

theorem readFrom_escaped {s : String} (h : step progress (.text s) = some behind) :
    readFrom progress ((escaped s).toList ++ cs) = readFrom behind cs :=
  readFrom_of_symbols (symbols_escaped s) h

theorem readFrom_newLine (depth : Nat) :
    readFrom progress ((newLine depth).toList ++ cs) = readFrom progress cs := by
  rw [readFrom, symbols_newLine, readFrom]

theorem readFrom_blank {c : Char} (h : c ∈ blanks) :
    readFrom progress (c :: cs) = readFrom progress cs := by
  rw [readFrom, symbols_blank h, readFrom]

/-- A value is awaited: it begins with any symbol but the end of a list. -/
def Awaits (progress : Progress) (frames : List Frame) : Prop :=
  ∀ s, s ≠ .mark ']' → step progress s = begin frames s

theorem awaits_value (frames : List Frame) : Awaits (.value frames) frames := fun _ _ => rfl

theorem awaits_item (frames : List Frame) : Awaits (.item frames) (.list [] :: frames) :=
  fun _ h => if_neg h

/-- A word reads as what it stands for. -/
theorem Awaits.readFrom_word (hawaits : Awaits progress frames) {w : String} (hw : IsWord w)
    {v : Json ℚ} (hv : ofWord? w.toList = some v) (hcs : Stops isWordChar cs) :
    readFrom progress (w.toList ++ cs) = readFrom (.behind frames v) cs := by
  refine readFrom_of_symbols (symbols_of_isWord hw hcs) ?_
  rw [hawaits (.word w.toList) Symbol.noConfusion, begin, hv]
  rfl

end

section
variable {α : Type} {number : α → String} {f : α → Json ℚ}

mutual
/-- The text of a value leads from where a value is awaited to behind the
value, in any lists and objects and before any text that does not go on with
it. -/
theorem readFrom_pretty (hnumber : ∀ x, IsWord (number x))
    (hf : ∀ x, ofWord? (number x).toList = some (f x)) {progress : Progress}
    {frames : List Frame} (depth : Nat) :
    ∀ (v : Json α) (r : List Char), Awaits progress frames → Stops isWordChar r →
      readFrom progress ((v.pretty number depth).toList ++ r) =
        readFrom (.behind frames (v.readAs f)) r
  | .null => by
      intro r hawaits hr
      rw [pretty, readAs]
      exact hawaits.readFrom_word ⟨by decide, by decide⟩ rfl hr
  | .bool b => by
      intro r hawaits hr
      rw [pretty, readAs]
      exact hawaits.readFrom_word (isWord_bool b) (by cases b <;> rfl) hr
  | .count n => by
      intro r hawaits hr
      rw [pretty, readAs]
      refine hawaits.readFrom_word (isWord_toString n) ?_ hr
      rw [ofWord?, Decimal.number?_toString]
  | .amount x => by
      intro r hawaits hr
      rw [pretty, readAs]
      exact hawaits.readFrom_word (hnumber x) (hf x) hr
  | .text s => by
      intro r hawaits hr
      rw [pretty, readAs]
      exact readFrom_escaped (hawaits (.text s) Symbol.noConfusion)
  | .list [] => by
      intro r hawaits hr
      rw [pretty, readAs, readItemsAs]
      show readFrom progress ('[' :: ']' :: r) = _
      rw [readFrom_mark (by decide) (hawaits (.mark '[') (by decide)), readFrom_mark (by decide) rfl]
  | .list (v :: rest) => by
      intro r hawaits hr
      rw [toList_pretty_list_cons, readAs, readItemsAs]
      simp only [List.cons_append, List.append_assoc, List.nil_append]
      rw [readFrom_mark (by decide) (hawaits (.mark '[') (by decide)),
        readFrom_newLine, readFrom_pretty hnumber hf (depth + 1) v _ (awaits_item frames)
          (stops_prettyItems _ _ _ _)]
      exact readFrom_prettyItems hnumber hf (depth + 1) depth rest [] _ r
  | .object [] => by
      intro r hawaits hr
      rw [pretty, readAs, readMembersAs]
      show readFrom progress ('\x7b' :: '\x7d' :: r) = _
      rw [readFrom_mark (by decide) (hawaits (.mark '\x7b') (by decide)),
        readFrom_mark (by decide) rfl]
  | .object ((k, v) :: rest) => by
      intro r hawaits hr
      rw [toList_pretty_object_cons, readAs, readMembersAs]
      simp only [List.cons_append, List.append_assoc, List.nil_append]
      rw [readFrom_mark (by decide) (hawaits (.mark '\x7b') (by decide)),
        readFrom_newLine, readFrom_escaped rfl, readFrom_mark (by decide) rfl,
        readFrom_blank (by decide), readFrom_pretty hnumber hf (depth + 1) v _ (awaits_value _)
          (stops_prettyMembers _ _ _ _)]
      exact readFrom_prettyMembers hnumber hf (depth + 1) depth rest [] k _ r
/-- The items of a list behind one that was read, and the end of the list. -/
theorem readFrom_prettyItems (hnumber : ∀ x, IsWord (number x))
    (hf : ∀ x, ofWord? (number x).toList = some (f x)) {frames : List Frame}
    (depth depth' : Nat) :
    ∀ (rest : List (Json α)) (before : List (Json ℚ)) (v : Json ℚ) (r : List Char),
      readFrom (.behind (.list before :: frames) v)
        ((prettyItems number depth rest).toList ++ ((newLine depth').toList ++ ']' :: r)) =
      readFrom (.behind frames (list (before ++ v :: readItemsAs f rest))) r
  | [] => by
      intro before v r
      rw [prettyItems, readItemsAs]
      show readFrom _ ((newLine depth').toList ++ ']' :: r) = _
      rw [readFrom_newLine, readFrom_mark (by decide) rfl]
  | w :: rest => by
      intro before v r
      rw [toList_prettyItems_cons, readItemsAs]
      simp only [List.cons_append, List.append_assoc]
      rw [readFrom_mark (by decide) rfl, readFrom_newLine,
        readFrom_pretty hnumber hf depth w _ (awaits_value _) (stops_prettyItems _ _ _ _),
        readFrom_prettyItems hnumber hf depth depth' rest, List.append_assoc, List.singleton_append]
/-- The members of an object behind one that was read, and the end of the
object. -/
theorem readFrom_prettyMembers (hnumber : ∀ x, IsWord (number x))
    (hf : ∀ x, ofWord? (number x).toList = some (f x)) {frames : List Frame}
    (depth depth' : Nat) :
    ∀ (rest : List (String × Json α)) (before : List (String × Json ℚ)) (k : String) (v : Json ℚ)
      (r : List Char),
      readFrom (.behind (.object before k :: frames) v)
        ((prettyMembers number depth rest).toList ++ ((newLine depth').toList ++ '\x7d' :: r)) =
      readFrom (.behind frames (object (before ++ (k, v) :: readMembersAs f rest))) r
  | [] => by
      intro before k v r
      rw [prettyMembers, readMembersAs]
      show readFrom _ ((newLine depth').toList ++ '\x7d' :: r) = _
      rw [readFrom_newLine, readFrom_mark (by decide) rfl]
  | (k', w) :: rest => by
      intro before k v r
      rw [toList_prettyMembers_cons, readMembersAs]
      simp only [List.cons_append, List.append_assoc]
      rw [readFrom_mark (by decide) rfl, readFrom_newLine, readFrom_escaped rfl,
        readFrom_mark (by decide) rfl, readFrom_blank (by decide),
        readFrom_pretty hnumber hf depth w _ (awaits_value _) (stops_prettyMembers _ _ _ _),
        readFrom_prettyMembers hnumber hf depth depth' rest, List.append_assoc,
        List.singleton_append]
end

/-- What is printed over several lines reads as the value it was printed for. -/
theorem read?_pretty (hnumber : ∀ x, IsWord (number x))
    (hf : ∀ x, ofWord? (number x).toList = some (f x)) (v : Json α) (depth : Nat) :
    read? (v.pretty number depth ++ "\n") = some (v.readAs f) := by
  have hbreak : Stops isWordChar "\n".toList := stops_cons (by decide)
  rw [read?, String.toList_append,
    readFrom_pretty hnumber hf depth v _ (awaits_value []) hbreak]
  rfl

/-- Any layout is read, and every way to write a number or a character. -/
example : read? " [-1.5e3,\"\\u0041\"\t]" = some (list [amount (-1500), text "A"]) := by cbv

/-- What breaks the rules is not read. -/
example : ["[1,]", "[01]", "1.", "\"\t\"", "\x7b\"a\" 1\x7d", "[null] true"].all
    (read? · |>.isNone) = true := by decide +kernel

end

/-! ## Floats and what has them -/

/-- What a float reads as: what is no finite number is left out. -/
def ofFloat (x : Float) : Json ℚ :=
  if 0x7ff0000000000000 ≤ Decimal.magnitude x then null else amount (Decimal.written x)

theorem ofWord?_floatText (x : Float) : ofWord? (floatText x).toList = some (ofFloat x) := by
  have hwritten := Decimal.writeFloat?_eq x
  rw [floatText, ofFloat]
  split at hwritten
  next hlarge =>
    rw [hwritten, if_pos hlarge]
    rfl
  next hfinite =>
    rw [hwritten, Option.getD_some, ofWord?, Decimal.number?_of_writeFloat? hwritten,
      if_neg hfinite]

/-- A count that was measured reads as itself. -/
theorem readAs_ofCount {n : ℕ} (h : n ≤ 2 ^ 53) :
    (amount (Amount.ofCount n : Float)).readAs ofFloat = amount (n : ℚ) := by
  rw [readAs, ofFloat, if_neg (Decimal.magnitude_ofCount_lt h).not_ge, Decimal.written_ofCount h]

theorem field?_ofFloat (x : Float) (name : String) : (ofFloat x).field? name = none := by
  rw [ofFloat]
  split <;> rfl

theorem items_ofFloat (x : Float) : (ofFloat x).items = [] := by
  rw [ofFloat]
  split <;> rfl

theorem readItemsAs_eq_map {α : Type} (f : α → Json ℚ) (items : List (Json α)) :
    readItemsAs f items = items.map (readAs f) := by
  induction items with
  | nil => rfl
  | cons v rest ih => rw [readItemsAs, ih, List.map_cons]

theorem lookup_readMembersAs {α : Type} (f : α → Json ℚ) (members : List (String × Json α))
    (name : String) :
    (readMembersAs f members).lookup name = (members.lookup name).map (readAs f) := by
  induction members with
  | nil => rfl
  | cons member rest ih =>
      obtain ⟨k, v⟩ := member
      rw [readMembersAs, List.lookup_cons, List.lookup_cons]
      cases name == k with
      | true => rfl
      | false => exact ih

section
variable (value : Json Float)

theorem field?_readAs (name : String) :
    (value.readAs ofFloat).field? name = (value.field? name).map (readAs ofFloat) := by
  cases value with
  | object members =>
      rw [readAs]
      exact lookup_readMembersAs ofFloat members name
  | amount x =>
      rw [readAs]
      exact field?_ofFloat x name
  | null | bool | count | text | list =>
      rw [readAs]
      rfl

theorem items_readAs : (value.readAs ofFloat).items = value.items.map (readAs ofFloat) := by
  cases value with
  | list items =>
      rw [readAs]
      exact readItemsAs_eq_map ofFloat items
  | amount x =>
      rw [readAs]
      exact items_ofFloat x
  | null | bool | count | text | object =>
      rw [readAs]
      rfl

/-- What is printed under some names is read under them. -/
theorem at?_readAs (names : List String) :
    (value.readAs ofFloat).at? names = (value.at? names).map (readAs ofFloat) := by
  induction names generalizing value with
  | nil => rfl
  | cons name rest ih =>
      rw [at?, at?, field?_readAs]
      cases value.field? name with
      | none => rfl
      | some inner => exact ih inner

theorem listed_readAs (names : List String) :
    (value.readAs ofFloat).listed names = (value.listed names).map (readAs ofFloat) := by
  rw [listed, listed, at?_readAs]
  cases value.at? names with
  | none => rfl
  | some inner => exact items_readAs inner

theorem map_at?_listed_readAs (names below : List String) :
    ((value.readAs ofFloat).listed names).map (·.at? below) =
      ((value.listed names).map (·.at? below)).map (Option.map (readAs ofFloat)) := by
  rw [listed_readAs, List.map_map, List.map_map]
  exact List.map_congr_left fun v _ => at?_readAs v below

end
end Json

/-- The structured report reads as the value that it was made of. -/
theorem Report.read?_structuredText (subject : Subject) (index : UnitIndex Float)
    (report : ScanReport) :
    Json.read? (structuredText subject index report) =
      some ((structured subject index report).readAs Json.ofFloat) :=
  Json.read?_pretty Json.isWord_floatText Json.ofWord?_floatText _ 0

end SourceMetrics
