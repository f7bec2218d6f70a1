/-
# A compact text tells its value

The texts of values in one line are read here from the left, with anything
behind them: what a value is written as ends where it has to, and never a
character earlier or later.

    word      ends before the first character that words do not have
    "text"    ends at the first quotation mark that is not escaped
    [list]    ends at the bracket behind the items
    object    ends at the brace behind the members

The escapes of characters are a prefix code (`eq_of_escapedChar_isPrefix`),
so that a text is read character by character.  For values the same is shown
by induction (`compact_append_inj`): two values with texts that start alike
are spelled alike, and what stands behind them is the same.

A text does not tell whether a number in it was counted or measured.  Every
value without parts but texts is a word, and this word is all that is told of
it: the spelling of the value (`spelled_eq_of_compact_eq`).
-/
import SourceMetrics.Proofs.Text.Runs
import SourceMetrics.Report.Json

namespace SourceMetrics

namespace Json

open Text

variable {α : Type}

/-! ## Words -/

/-- A character of the words that stand for numbers, truth values and the
lack of a value. -/
def isWordChar (c : Char) : Bool := c.isAlphanum || c = '+' || c = '-' || c = '.'

/-- A text that consists of such characters. -/
structure IsWord (w : String) : Prop where
  ne_nil : w.toList ≠ []
  all_chars : w.toList.all isWordChar = true

theorem IsWord.chars {w : String} (hw : IsWord w) : ∀ c ∈ w.toList, isWordChar c = true :=
  List.all_eq_true.mp hw.all_chars

/-- Of a text that starts with a word, the word and the rest are told apart. -/
theorem IsWord.append_inj {w w' : String} (hw : IsWord w) (hw' : IsWord w') {r r' : List Char}
    (hr : Stops isWordChar r) (hr' : Stops isWordChar r') (h : w.toList ++ r = w'.toList ++ r') :
    w = w' ∧ r = r' := by
  obtain ⟨hword, hrest⟩ := run_append_inj hw.chars hw'.chars hr hr' h
  exact ⟨String.toList_inj.mp hword, hrest⟩

theorem IsWord.isWordChar_of_cons {w : String} (hw : IsWord w) {r tail : List Char} {c : Char}
    (h : w.toList ++ r = c :: tail) : isWordChar c = true := by
  obtain ⟨d, rest, hd⟩ := List.exists_cons_of_ne_nil hw.ne_nil
  have hchar := hw.chars d (hd ▸ List.mem_cons_self)
  rw [hd, List.cons_append] at h
  rwa [← (List.cons.inj h).1]

theorem isWordChar_of_isDigit {c : Char} (h : c.isDigit = true) : isWordChar c = true := by
  rw [isWordChar, Char.isAlphanum, h, Bool.or_true, Bool.true_or, Bool.true_or, Bool.true_or]

theorem isWord_toString (n : Nat) : IsWord (toString n) := by
  have hdigits : (toString n).toList = Nat.toDigits 10 n := by
    rw [Nat.toString_eq_repr, Nat.toList_repr]
  refine ⟨hdigits ▸ Nat.toDigits_ne_nil, List.all_eq_true.mpr fun c hc => ?_⟩
  rw [hdigits] at hc
  exact isWordChar_of_isDigit (isDigit_of_mem_toDigits n c hc)

theorem isWord_bool (b : Bool) : IsWord (if b then "true" else "false") := by
  cases b
  · exact ⟨by decide, by decide⟩
  · exact ⟨by decide, by decide⟩

/-! ## Escapes -/

/-- The characters that stand for themselves within a text. -/
def IsPlain (c : Char) : Prop := c ≠ '"' ∧ c ≠ '\\' ∧ 0x20 ≤ c.toNat

/-- The other characters. -/
def specials : List Char := '"' :: '\\' :: (List.range 0x20).map Char.ofNat

theorem mem_specials_of_not_isPlain {c : Char} (h : ¬ IsPlain c) : c ∈ specials := by
  by_cases hquote : c = '"'
  · exact hquote ▸ List.mem_cons_self
  · by_cases hslash : c = '\\'
    · exact hslash ▸ List.mem_cons_of_mem _ List.mem_cons_self
    · have hsmall : c.toNat < 0x20 := Nat.lt_of_not_le fun hle => h ⟨hquote, hslash, hle⟩
      refine List.mem_cons_of_mem _ (List.mem_cons_of_mem _ (List.mem_map.mpr ⟨c.toNat, ?_, ?_⟩))
      · exact List.mem_range.mpr hsmall
      · exact Char.ofNat_toNat c

theorem escapedChar_of_isPlain {c : Char} (h : IsPlain c) : escapedChar c = [c] := by
  obtain ⟨hquote, hslash, hlarge⟩ := h
  unfold escapedChar
  split
  next => exact absurd rfl hquote
  next => exact absurd rfl hslash
  next => exact absurd hlarge (by decide)
  next => exact absurd hlarge (by decide)
  next => exact absurd hlarge (by decide)
  next => exact absurd hlarge (by decide)
  next => exact absurd hlarge (by decide)
  next => exact if_neg (Nat.not_lt.mpr hlarge)

theorem head?_escapedChar_specials : ∀ c ∈ specials, (escapedChar c).head? = some '\\' := by
  have h : specials.all fun c => (escapedChar c).head? = some '\\' := by decide +kernel
  simpa only [List.all_eq_true, decide_eq_true_iff] using h

theorem eq_of_isPrefix_specials : ∀ c ∈ specials, ∀ d ∈ specials,
    escapedChar c <+: escapedChar d → c = d := by
  have h : specials.all fun c => specials.all fun d =>
      escapedChar c <+: escapedChar d → c = d := by decide +kernel
  simpa only [List.all_eq_true, decide_eq_true_iff] using h

/-- A character is plain and stands for itself, or its escape starts with a
backslash. -/
theorem escapedChar_cases (c : Char) :
    (IsPlain c ∧ escapedChar c = [c]) ∨
      (c ∈ specials ∧ ∃ tail, escapedChar c = '\\' :: tail) := by
  by_cases h : IsPlain c
  · exact .inl ⟨h, escapedChar_of_isPlain h⟩
  · have hmem := mem_specials_of_not_isPlain h
    exact .inr ⟨hmem, List.head?_eq_some_iff.mp (head?_escapedChar_specials c hmem)⟩

/-- The escapes are a prefix code: none starts with that of another
character. -/
theorem eq_of_escapedChar_isPrefix {c d : Char} (h : escapedChar c <+: escapedChar d) : c = d := by
  rcases escapedChar_cases c with ⟨hc, hcs⟩ | ⟨hc, tail, hcs⟩ <;>
    rcases escapedChar_cases d with ⟨hd, hds⟩ | ⟨hd, tail', hds⟩
  · rw [hcs, hds, List.cons_prefix_cons] at h
    exact h.1
  · rw [hcs, hds, List.cons_prefix_cons] at h
    exact absurd h.1 hc.2.1
  · rw [hcs, hds, List.cons_prefix_cons] at h
    exact absurd h.1.symm hd.2.1
  · exact eq_of_isPrefix_specials c hc d hd h

/-- No escape starts with a quotation mark. -/
theorem escapedChar_ne_quote (c : Char) (rest tail : List Char) :
    escapedChar c ++ rest ≠ '"' :: tail := by
  rcases escapedChar_cases c with ⟨hc, hcs⟩ | ⟨hc, _, hcs⟩
  · rw [hcs]
    exact fun h => hc.1 (List.cons.inj h).1
  · rw [hcs]
    exact fun h => absurd (List.cons.inj h).1 (by decide)

/-- Escaped characters end at the first quotation mark that is not escaped. -/
theorem flatMap_escapedChar_inj {cs ds r r' : List Char}
    (h : cs.flatMap escapedChar ++ '"' :: r = ds.flatMap escapedChar ++ '"' :: r') :
    cs = ds ∧ r = r' := by
  induction cs generalizing ds with
  | nil =>
      cases ds with
      | nil => exact ⟨rfl, (List.cons.inj h).2⟩
      | cons d ds =>
          rw [List.flatMap_cons, List.append_assoc] at h
          exact absurd h.symm (escapedChar_ne_quote d _ _)
  | cons c cs ih =>
      cases ds with
      | nil =>
          rw [List.flatMap_cons, List.append_assoc] at h
          exact absurd h (escapedChar_ne_quote c _ _)
      | cons d ds =>
          rw [List.flatMap_cons, List.flatMap_cons, List.append_assoc, List.append_assoc] at h
          have hc : escapedChar c <+: escapedChar d ++ (ds.flatMap escapedChar ++ '"' :: r') :=
            ⟨_, h⟩
          obtain rfl : c = d := by
            rcases List.prefix_or_prefix_of_prefix hc (List.prefix_append _ _) with hcd | hdc
            · exact eq_of_escapedChar_isPrefix hcd
            · exact (eq_of_escapedChar_isPrefix hdc).symm
          obtain ⟨rfl, hr⟩ := ih (List.append_cancel_left h)
          exact ⟨rfl, hr⟩

theorem toList_escaped (s : String) :
    (escaped s).toList = '"' :: (s.toList.flatMap escapedChar ++ ['"']) := by
  rw [escaped, String.toList_ofList]
  rfl

/-- Of what starts with a text between quotation marks, the text and the rest
are told apart. -/
theorem escaped_append_inj {s s' : String} {r r' : List Char}
    (h : (escaped s).toList ++ r = (escaped s').toList ++ r') : s = s' ∧ r = r' := by
  rw [toList_escaped, toList_escaped, List.cons_append, List.cons_append, List.append_assoc,
    List.append_assoc] at h
  obtain ⟨hs, hr⟩ := flatMap_escapedChar_inj (List.cons.inj h).2
  exact ⟨String.toList_inj.mp hs, hr⟩

/-! ## Spellings -/

mutual
/-- A value as its text shows it: every value without parts but texts is the
word that it is written as. -/
def spelled (number : α → String) : Json α → Json String
  | null => .amount "null"
  | bool b => .amount (if b then "true" else "false")
  | count n => .amount (toString n)
  | amount x => .amount (number x)
  | text s => .text s
  | list items => .list (spelledItems number items)
  | object members => .object (spelledMembers number members)

/-- The items of a list as their texts show them. -/
def spelledItems (number : α → String) : List (Json α) → List (Json String)
  | [] => []
  | v :: rest => spelled number v :: spelledItems number rest

/-- The members of an object as their texts show them. -/
def spelledMembers (number : α → String) : List (String × Json α) → List (String × Json String)
  | [] => []
  | (k, v) :: rest => (k, spelled number v) :: spelledMembers number rest
end

variable {number : α → String}

/-- A value is written as a word, or has a text or parts. -/
theorem compact_cases (hnumber : ∀ x, IsWord (number x)) (j : Json α) :
    (∃ w, IsWord w ∧ j.compact number = w ∧ j.spelled number = .amount w) ∨
      (∃ s, j = .text s) ∨ (∃ items, j = .list items) ∨ ∃ members, j = .object members := by
  cases j with
  | null => exact .inl ⟨"null", ⟨by decide, by decide⟩, by rw [compact], by rw [spelled]⟩
  | bool b => exact .inl ⟨_, isWord_bool b, by rw [compact], by rw [spelled]⟩
  | count n => exact .inl ⟨_, isWord_toString n, by rw [compact], by rw [spelled]⟩
  | amount x => exact .inl ⟨_, hnumber x, by rw [compact], by rw [spelled]⟩
  | text s => exact .inr (.inl ⟨s, rfl⟩)
  | list items => exact .inr (.inr (.inl ⟨items, rfl⟩))
  | object members => exact .inr (.inr (.inr ⟨members, rfl⟩))

/-! ## The texts of values, character by character -/

/-! The marks around values, as characters. -/

theorem toList_openBrace : openBrace.toList = ['\x7b'] := rfl

theorem toList_closeBrace : closeBrace.toList = ['\x7d'] := rfl

theorem toList_openBracket : "[".toList = ['['] := rfl

theorem toList_closeBracket : "]".toList = [']'] := rfl

theorem toList_colon : ":".toList = [':'] := rfl

theorem toList_comma : ",".toList = [','] := rfl

section
variable (number)

/-- The characters of the items of a list, with the bracket behind them. -/
def listBody : List (Json α) → List Char
  | [] => [']']
  | v :: rest => (v.compact number).toList ++ ((compactItems number rest).toList ++ [']'])

/-- The characters of the members of an object, with the brace behind them. -/
def objectBody : List (String × Json α) → List Char
  | [] => ['\x7d']
  | (k, v) :: rest =>
    (escaped k).toList ++
      (':' :: (v.compact number).toList ++ ((compactMembers number rest).toList ++ ['\x7d']))

theorem toList_compact_text (s : String) :
    ((text s : Json α).compact number).toList =
      '"' :: (s.toList.flatMap escapedChar ++ ['"']) := by
  rw [compact, toList_escaped]

theorem toList_compact_list (items : List (Json α)) :
    ((list items).compact number).toList = '[' :: listBody number items := by
  cases items with
  | nil =>
      rw [compact, listBody]
      rfl
  | cons v rest =>
      rw [compact, listBody]
      simp only [String.toList_append, toList_openBracket, toList_closeBracket, List.append_assoc,
        List.cons_append, List.nil_append]

theorem toList_compact_object (members : List (String × Json α)) :
    ((object members).compact number).toList = '\x7b' :: objectBody number members := by
  cases members with
  | nil =>
      rw [compact, objectBody]
      rfl
  | cons member rest =>
      obtain ⟨k, v⟩ := member
      rw [compact, objectBody]
      simp only [String.toList_append, toList_openBrace, toList_colon, toList_closeBrace,
        List.append_assoc, List.cons_append, List.nil_append]

theorem toList_compactItems_cons (v : Json α) (rest : List (Json α)) :
    (compactItems number (v :: rest)).toList =
      ',' :: ((v.compact number).toList ++ (compactItems number rest).toList) := by
  rw [compactItems]
  simp only [String.toList_append, toList_comma, List.cons_append, List.nil_append]

theorem toList_compactMembers_cons (k : String) (v : Json α) (rest : List (String × Json α)) :
    (compactMembers number ((k, v) :: rest)).toList =
      ',' :: ((escaped k).toList ++
        (':' :: ((v.compact number).toList ++ (compactMembers number rest).toList))) := by
  rw [compactMembers]
  simp only [String.toList_append, toList_comma, toList_colon, List.append_assoc, List.cons_append,
    List.nil_append]

end

/-- What stands behind an item does not go on with it. -/
theorem stops_items (rest : List (Json α)) (r : List Char) :
    Stops isWordChar ((compactItems number rest).toList ++ ']' :: r) := by
  cases rest with
  | nil =>
      rw [compactItems]
      exact stops_cons (by decide)
  | cons v rest =>
      rw [toList_compactItems_cons, List.cons_append]
      exact stops_cons (by decide)

/-- What stands behind a member does not go on with it. -/
theorem stops_members (rest : List (String × Json α)) (r : List Char) :
    Stops isWordChar ((compactMembers number rest).toList ++ '\x7d' :: r) := by
  cases rest with
  | nil =>
      rw [compactMembers]
      exact stops_cons (by decide)
  | cons member rest =>
      rw [toList_compactMembers_cons, List.cons_append]
      exact stops_cons (by decide)

section
variable (hnumber : ∀ x, IsWord (number x)) {r r' : List Char}
include hnumber

/-- A value whose text starts like a word is spelled as this word. -/
theorem word_append_inj {w : String} (hw : IsWord w) (hr : Stops isWordChar r)
    (hr' : Stops isWordChar r') (j : Json α) (h : w.toList ++ r = (j.compact number).toList ++ r') :
    Json.amount w = j.spelled number ∧ r = r' := by
  rcases compact_cases hnumber j with ⟨w', hw', hj, hspelled⟩ | ⟨s, rfl⟩ | ⟨items, rfl⟩ |
    ⟨members, rfl⟩
  · rw [hj] at h
    obtain ⟨rfl, hrest⟩ := hw.append_inj hw' hr hr' h
    exact ⟨hspelled.symm, hrest⟩
  · rw [toList_compact_text] at h
    exact absurd (hw.isWordChar_of_cons h) (by decide)
  · rw [toList_compact_list] at h
    exact absurd (hw.isWordChar_of_cons h) (by decide)
  · rw [toList_compact_object] at h
    exact absurd (hw.isWordChar_of_cons h) (by decide)

/-- The same for a value that is written as a word. -/
theorem append_word_inj {w : String} (hw : IsWord w) {j j' : Json α} (hj' : j'.compact number = w)
    (hspelled : j'.spelled number = .amount w) (hr : Stops isWordChar r)
    (hr' : Stops isWordChar r')
    (h : (j.compact number).toList ++ r = (j'.compact number).toList ++ r') :
    j.spelled number = j'.spelled number ∧ r = r' := by
  rw [hj'] at h
  obtain ⟨hword, hrest⟩ := word_append_inj hnumber hw hr' hr j h.symm
  exact ⟨hword.symm.trans hspelled.symm, hrest.symm⟩

/-- The text of a value does not start like the end of a list. -/
theorem compact_ne_close (j : Json α) {c : Char} (hc : c = ']' ∨ c = '\x7d') (tail : List Char) :
    (j.compact number).toList ++ r ≠ c :: tail := by
  intro h
  rcases compact_cases hnumber j with ⟨w, hw, hj, -⟩ | ⟨s, rfl⟩ | ⟨items, rfl⟩ | ⟨members, rfl⟩
  · rw [hj] at h
    have hword := hw.isWordChar_of_cons h
    rcases hc with rfl | rfl <;> exact absurd hword (by decide)
  · rw [toList_compact_text] at h
    have heq := (List.cons.inj h).1
    rcases hc with rfl | rfl <;> exact absurd heq (by decide)
  · rw [toList_compact_list] at h
    have heq := (List.cons.inj h).1
    rcases hc with rfl | rfl <;> exact absurd heq (by decide)
  · rw [toList_compact_object] at h
    have heq := (List.cons.inj h).1
    rcases hc with rfl | rfl <;> exact absurd heq (by decide)

/-- The first item of a list follows its bracket as the others follow their
commas. -/
theorem compactItems_of_listBody (items items' : List (Json α))
    (h : listBody number items ++ r = listBody number items' ++ r') :
    (compactItems number items).toList ++ ']' :: r =
      (compactItems number items').toList ++ ']' :: r' := by
  cases items with
  | nil =>
      cases items' with
      | nil => exact h
      | cons v rest =>
          rw [listBody, listBody, List.append_assoc] at h
          exact absurd h.symm (compact_ne_close hnumber v (.inl rfl) _)
  | cons v rest =>
      cases items' with
      | nil =>
          rw [listBody, listBody, List.append_assoc] at h
          exact absurd h (compact_ne_close hnumber v (.inl rfl) _)
      | cons v' rest' =>
          rw [listBody, listBody] at h
          simp only [List.append_assoc, List.singleton_append] at h
          simp only [toList_compactItems_cons, List.cons_append, List.append_assoc, h]

omit hnumber in
/-- The first member of an object follows its brace as the others follow
their commas. -/
theorem compactMembers_of_objectBody (members members' : List (String × Json α))
    (h : objectBody number members ++ r = objectBody number members' ++ r') :
    (compactMembers number members).toList ++ '\x7d' :: r =
      (compactMembers number members').toList ++ '\x7d' :: r' := by
  cases members with
  | nil =>
      cases members' with
      | nil => exact h
      | cons member rest =>
          rw [objectBody, objectBody, toList_escaped, List.singleton_append, List.cons_append,
            List.cons_append] at h
          exact absurd (List.cons.inj h).1 (by decide)
  | cons member rest =>
      cases members' with
      | nil =>
          rw [objectBody, objectBody, toList_escaped, List.singleton_append, List.cons_append,
            List.cons_append] at h
          exact absurd (List.cons.inj h).1 (by decide)
      | cons member' rest' =>
          rw [objectBody, objectBody] at h
          simp only [List.append_assoc, List.cons_append, List.nil_append] at h
          rw [toList_compactMembers_cons, toList_compactMembers_cons]
          simp only [List.cons_append, List.append_assoc, h]

end

mutual
/-- Of what starts with the text of a value, the spelling of the value and
the rest are told apart. -/
theorem compact_append_inj (hnumber : ∀ x, IsWord (number x)) :
    ∀ (j j' : Json α) (r r' : List Char), Stops isWordChar r → Stops isWordChar r' →
      (j.compact number).toList ++ r = (j'.compact number).toList ++ r' →
      j.spelled number = j'.spelled number ∧ r = r'
  | .text s, j' => by
      intro r r' hr hr' h
      rcases compact_cases hnumber j' with ⟨w, hw, hj, hspelled⟩ | ⟨s', rfl⟩ | ⟨items, rfl⟩ |
        ⟨members, rfl⟩
      · exact append_word_inj hnumber hw hj hspelled hr hr' h
      · rw [compact, compact] at h
        obtain ⟨rfl, hrest⟩ := escaped_append_inj h
        exact ⟨rfl, hrest⟩
      · rw [toList_compact_text, toList_compact_list] at h
        exact absurd (List.cons.inj h).1 (by decide)
      · rw [toList_compact_text, toList_compact_object] at h
        exact absurd (List.cons.inj h).1 (by decide)
  | .list items, j' => by
      intro r r' hr hr' h
      rcases compact_cases hnumber j' with ⟨w, hw, hj, hspelled⟩ | ⟨s', rfl⟩ | ⟨items', rfl⟩ |
        ⟨members, rfl⟩
      · exact append_word_inj hnumber hw hj hspelled hr hr' h
      · rw [toList_compact_list, toList_compact_text] at h
        exact absurd (List.cons.inj h).1 (by decide)
      · rw [toList_compact_list, toList_compact_list] at h
        have hbody := compactItems_of_listBody hnumber items items' (List.cons.inj h).2
        obtain ⟨hitems, hrest⟩ := compactItems_append_inj hnumber items items' _ _ hbody
        exact ⟨by rw [spelled, spelled, hitems], hrest⟩
      · rw [toList_compact_list, toList_compact_object] at h
        exact absurd (List.cons.inj h).1 (by decide)
  | .object members, j' => by
      intro r r' hr hr' h
      rcases compact_cases hnumber j' with ⟨w, hw, hj, hspelled⟩ | ⟨s', rfl⟩ | ⟨items', rfl⟩ |
        ⟨members', rfl⟩
      · exact append_word_inj hnumber hw hj hspelled hr hr' h
      · rw [toList_compact_object, toList_compact_text] at h
        exact absurd (List.cons.inj h).1 (by decide)
      · rw [toList_compact_object, toList_compact_list] at h
        exact absurd (List.cons.inj h).1 (by decide)
      · rw [toList_compact_object, toList_compact_object] at h
        have hbody := compactMembers_of_objectBody members members' (List.cons.inj h).2
        obtain ⟨hmembers, hrest⟩ := compactMembers_append_inj hnumber members members' _ _ hbody
        exact ⟨by rw [spelled, spelled, hmembers], hrest⟩
  | .null, j' => by
      intro r r' hr hr' h
      rw [compact] at h
      exact word_append_inj hnumber ⟨by decide, by decide⟩ hr hr' j' h
  | .bool b, j' => by
      intro r r' hr hr' h
      rw [compact] at h
      exact word_append_inj hnumber (isWord_bool b) hr hr' j' h
  | .count n, j' => by
      intro r r' hr hr' h
      rw [compact] at h
      exact word_append_inj hnumber (isWord_toString n) hr hr' j' h
  | .amount x, j' => by
      intro r r' hr hr' h
      rw [compact] at h
      exact word_append_inj hnumber (hnumber x) hr hr' j' h
theorem compactItems_append_inj (hnumber : ∀ x, IsWord (number x)) :
    ∀ (items items' : List (Json α)) (r r' : List Char),
      (compactItems number items).toList ++ ']' :: r =
        (compactItems number items').toList ++ ']' :: r' →
      spelledItems number items = spelledItems number items' ∧ r = r'
  | [], [] => by
      intro r r' h
      exact ⟨rfl, (List.cons.inj h).2⟩
  | [], v :: rest => by
      intro r r' h
      rw [toList_compactItems_cons, compactItems] at h
      exact absurd (List.cons.inj h).1 (by decide)
  | v :: rest, [] => by
      intro r r' h
      rw [toList_compactItems_cons, compactItems] at h
      exact absurd (List.cons.inj h).1 (by decide)
  | v :: rest, v' :: rest' => by
      intro r r' h
      simp only [toList_compactItems_cons, List.cons_append, List.append_assoc] at h
      obtain ⟨hv, hmore⟩ := compact_append_inj hnumber v v' _ _ (stops_items rest r)
        (stops_items rest' r') (List.cons.inj h).2
      obtain ⟨hrest, hr⟩ := compactItems_append_inj hnumber rest rest' r r' hmore
      exact ⟨by rw [spelledItems, spelledItems, hv, hrest], hr⟩
theorem compactMembers_append_inj (hnumber : ∀ x, IsWord (number x)) :
    ∀ (members members' : List (String × Json α)) (r r' : List Char),
      (compactMembers number members).toList ++ '\x7d' :: r =
        (compactMembers number members').toList ++ '\x7d' :: r' →
      spelledMembers number members = spelledMembers number members' ∧ r = r'
  | [], [] => by
      intro r r' h
      exact ⟨rfl, (List.cons.inj h).2⟩
  | [], (k, v) :: rest => by
      intro r r' h
      rw [toList_compactMembers_cons, compactMembers] at h
      exact absurd (List.cons.inj h).1 (by decide)
  | (k, v) :: rest, [] => by
      intro r r' h
      rw [toList_compactMembers_cons, compactMembers] at h
      exact absurd (List.cons.inj h).1 (by decide)
  | (k, v) :: rest, (k', v') :: rest' => by
      intro r r' h
      simp only [toList_compactMembers_cons, List.cons_append, List.append_assoc] at h
      obtain ⟨hk, hvalue⟩ := escaped_append_inj (List.cons.inj h).2
      obtain ⟨hv, hmore⟩ := compact_append_inj hnumber v v' _ _ (stops_members rest r)
        (stops_members rest' r') (List.cons.inj hvalue).2
      obtain ⟨hrest, hr⟩ := compactMembers_append_inj hnumber rest rest' r r' hmore
      exact ⟨by rw [spelledMembers, spelledMembers, hk, hv, hrest], hr⟩
end

/-- Values with one text have one spelling. -/
theorem spelled_eq_of_compact_eq (hnumber : ∀ x, IsWord (number x)) {j j' : Json α}
    (h : j.compact number = j'.compact number) : j.spelled number = j'.spelled number :=
  (compact_append_inj hnumber j j' [] [] stops_nil stops_nil
    (congrArg (·.toList ++ []) h)).1

end Json
end SourceMetrics
