/-
# Lines of a text and line feeds among its bytes

A text has a line for every line feed, and one more for what follows the
last of them (`length_lines`).  A parser counts lines in another way: the
row of a byte offset is the number of line feeds before it, and the column
is the number of bytes since the last one (`Point.ofOffset`).

The two agree because a line feed is a byte of its own in UTF-8, and no
other character has that byte in it (`count_bytes`, `getLast?_bytes`).  So
the row of an offset is never above the number of lines, and below it where
the column says that something stands on the row.
-/
import SourceMetrics.SyntaxTree.Raw
import SourceMetrics.Text.Lines

namespace SourceMetrics

/-! ## Lines -/

namespace Text

/-- Something follows the last line feed of some characters. -/
def isUnfinished (cs : List Char) : Bool := cs.getLast?.any (· ≠ '\n')

theorem isUnfinished_append_cons (front cs : List Char) (c : Char) :
    isUnfinished (front ++ c :: cs) = isUnfinished (c :: cs) := by
  rw [isUnfinished, isUnfinished, List.getLast?_append, List.getLast?_cons]
  rfl

theorem isUnfinished_lineFeed (cs : List Char) : isUnfinished ('\n' :: cs) = isUnfinished cs := by
  rw [isUnfinished, isUnfinished, List.getLast?_cons]
  cases cs.getLast? <;> rfl

theorem isUnfinished_reverse {reversed : List Char} (h : '\n' ∉ reversed) :
    isUnfinished reversed.reverse = !reversed.isEmpty := by
  cases reversed with
  | nil => rfl
  | cons c rest =>
      have hc : c ≠ '\n' := fun heq => h (heq ▸ List.mem_cons_self)
      rw [isUnfinished, List.reverse_cons, List.getLast?_concat, Option.any_some]
      exact decide_eq_true hc

theorem length_linesFrom {reversed : List Char} (h : '\n' ∉ reversed) (cs : List Char) :
    (linesFrom reversed cs).length =
      cs.count '\n' + (isUnfinished (reversed.reverse ++ cs)).toNat := by
  induction cs generalizing reversed with
  | nil =>
      rw [List.append_nil, isUnfinished_reverse h, linesFrom]
      cases reversed <;> rfl
  | cons c cs ih =>
      rw [linesFrom, List.count_cons]
      by_cases hc : c = '\n'
      · subst hc
        rw [if_pos rfl, List.length_cons, ih List.not_mem_nil, isUnfinished_append_cons,
          isUnfinished_lineFeed]
        simp only [List.reverse_nil, List.nil_append, beq_self_eq_true, if_true]
        omega
      · have hmem : '\n' ∉ c :: reversed := by
          rw [List.mem_cons, not_or]
          exact ⟨fun heq => hc heq.symm, h⟩
        rw [if_neg hc, ih hmem, List.reverse_cons, List.append_assoc]
        simp only [beq_iff_eq, hc, if_false, Nat.add_zero, List.singleton_append]

/-- A line for every line feed, and one more for what follows the last. -/
theorem length_lines (text : String) :
    (lines text).length = text.toList.count '\n' + (isUnfinished text.toList).toNat :=
  length_linesFrom List.not_mem_nil text.toList

/-! ## Bytes -/

/-- The bytes of a text. -/
def bytes (text : String) : List UInt8 := text.toUTF8.data.toList

/-- The byte that ends a line. -/
def lineFeed : UInt8 := 10

theorem bytes_eq (text : String) : bytes text = text.toList.flatMap String.utf8EncodeChar := by
  have hencode : text.toUTF8 = text.toList.utf8Encode := String.utf8Encode_toList.symm
  rw [bytes, hencode, List.utf8Encode, List.toList_data_toByteArray]

theorem encode_lineFeed : String.utf8EncodeChar '\n' = [lineFeed] := rfl

/-- The bytes of no other character are the byte of a line feed: it is that
of its code point below 128, and there is none above. -/
theorem lineFeed_not_mem_encode {c : Char} (h : c ≠ '\n') :
    lineFeed ∉ String.utf8EncodeChar c := by
  have hval : c.val.toNat ≠ 10 := fun heq => h (Char.ext (UInt32.toNat_inj.mp heq))
  have hne : ∀ k : Nat, k % 256 ≠ 10 → lineFeed ≠ UInt8.ofNat k := by
    intro k hk heq
    have htoNat := congrArg UInt8.toNat heq
    rw [UInt8.toNat_ofNat'] at htoNat
    exact hk htoNat.symm
  intro hmem
  unfold String.utf8EncodeChar at hmem
  generalize c.val.toNat = v at hval hmem
  dsimp only at hmem
  split at hmem
  · exact hne v (by omega) (List.mem_singleton.mp hmem)
  · split at hmem
    · simp only [List.mem_cons, List.not_mem_nil, or_false] at hmem
      rcases hmem with heq | heq
      · exact hne _ (by omega) heq
      · exact hne _ (by omega) heq
    · split at hmem
      · simp only [List.mem_cons, List.not_mem_nil, or_false] at hmem
        rcases hmem with heq | heq | heq
        · exact hne _ (by omega) heq
        · exact hne _ (by omega) heq
        · exact hne _ (by omega) heq
      · simp only [List.mem_cons, List.not_mem_nil, or_false] at hmem
        rcases hmem with heq | heq | heq | heq
        · exact hne _ (by omega) heq
        · exact hne _ (by omega) heq
        · exact hne _ (by omega) heq
        · exact hne _ (by omega) heq

/-- A text has as many bytes that end a line as it has line feeds. -/
theorem count_bytes (text : String) : (bytes text).count lineFeed = text.toList.count '\n' := by
  rw [bytes_eq]
  induction text.toList with
  | nil => rfl
  | cons c cs ih =>
      rw [List.flatMap_cons, List.count_append, ih, List.count_cons]
      by_cases hc : c = '\n'
      · subst hc
        rw [encode_lineFeed, beq_self_eq_true, if_pos rfl, List.count_singleton_self, Nat.add_comm]
      · rw [List.count_eq_zero_of_not_mem (lineFeed_not_mem_encode hc), Nat.zero_add]
        simp only [beq_iff_eq, hc, if_false, Nat.add_zero]

/-- A text whose last byte ends no line is unfinished. -/
theorem isUnfinished_of_getLast? {text : String} {b : UInt8} (hlast : (bytes text).getLast? = some b)
    (hb : b ≠ lineFeed) : isUnfinished text.toList = true := by
  rw [bytes_eq] at hlast
  cases hcs : text.toList.getLast? with
  | none =>
      rw [List.getLast?_eq_none_iff.mp hcs] at hlast
      cases hlast
  | some c =>
      rw [isUnfinished, hcs, Option.any_some]
      refine decide_eq_true fun hc => hb ?_
      obtain ⟨front, hfront⟩ := List.getLast?_eq_some_iff.mp hcs
      rw [hfront, hc, List.flatMap_append, List.flatMap_singleton, encode_lineFeed,
        List.getLast?_concat] at hlast
      exact (Option.some.inj hlast).symm

end Text

/-! ## Rows and columns -/

/-- The row and column of a byte offset: the line feeds before it, and the
bytes since the last of them. -/
def Point.ofOffset (bytes : List UInt8) (offset : Nat) : Point :=
  ⟨(bytes.take offset).count Text.lineFeed,
    ((bytes.take offset).reverse.takeWhile (· ≠ Text.lineFeed)).length⟩

namespace Point

open Text

/-- At column zero nothing stands before an offset, or a line feed right
before it. -/
theorem column_eq_zero_iff {bytes : List UInt8} {offset : Nat} :
    (ofOffset bytes offset).column = 0 ↔
      ∀ b, (bytes.take offset).getLast? = some b → b = lineFeed := by
  rw [ofOffset, List.getLast?_eq_head?_reverse]
  cases (bytes.take offset).reverse with
  | nil =>
      constructor
      · intro _ b hb
        cases hb
      · intro _
        rfl
  | cons b rest =>
      rw [List.takeWhile_cons, List.head?_cons]
      by_cases hb : b = lineFeed
      · subst hb
        exact ⟨fun _ b hb => (Option.some.inj hb).symm, fun _ => rfl⟩
      · rw [if_pos (decide_eq_true hb), List.length_cons]
        constructor
        · intro hzero
          exact absurd hzero (Nat.succ_ne_zero _)
        · intro hall
          exact absurd (hall b rfl) hb

theorem row_le_length_lines (text : String) (offset : Nat) :
    (ofOffset (bytes text) offset).row ≤ (lines text).length := by
  have hcount := (List.take_sublist offset (bytes text)).count_le lineFeed
  rw [count_bytes] at hcount
  rw [length_lines]
  exact Nat.le_trans hcount (Nat.le_add_right _ _)

/-- Where something stands on a row before an offset, there is a line for the
row. -/
theorem row_lt_length_lines {text : String} {offset : Nat}
    (h : (ofOffset (bytes text) offset).column ≠ 0) :
    (ofOffset (bytes text) offset).row < (lines text).length := by
  obtain ⟨b, hb, hne⟩ : ∃ b, ((bytes text).take offset).getLast? = some b ∧ b ≠ lineFeed := by
    obtain ⟨b, hb⟩ := Classical.not_forall.mp fun hall => h (column_eq_zero_iff.mpr hall)
    exact ⟨b, Classical.not_imp.mp hb⟩
  have hsplit := List.take_append_drop offset (bytes text)
  have hcount := congrArg (List.count lineFeed) hsplit
  rw [List.count_append, count_bytes] at hcount
  rw [length_lines]
  show ((bytes text).take offset).count lineFeed < _
  by_cases hrest : lineFeed ∈ (bytes text).drop offset
  · have := List.count_pos_iff.mpr hrest
    omega
  · -- The row is the last one, and the last byte of the text ends no line.
    have hunfinished : isUnfinished text.toList = true := by
      have hlast := congrArg List.getLast? hsplit
      rw [List.getLast?_append] at hlast
      cases hdrop : ((bytes text).drop offset).getLast? with
      | none =>
          rw [hdrop, hb] at hlast
          exact isUnfinished_of_getLast? hlast.symm hne
      | some b' =>
          rw [hdrop] at hlast
          refine isUnfinished_of_getLast? hlast.symm fun heq => hrest ?_
          exact heq ▸ List.mem_of_getLast? hdrop
    rw [hunfinished, ← hcount, List.count_eq_zero_of_not_mem hrest]
    exact Nat.lt_succ_self _

/-- A stretch of bytes that ends right behind a line feed has one in it. -/
theorem row_lt_row {bytes : List UInt8} {start stop : Nat}
    (hne : (bytes.take stop).drop start ≠ []) (hstop : (ofOffset bytes stop).column = 0) :
    (ofOffset bytes start).row < (ofOffset bytes stop).row := by
  have hlt : start < stop := by
    refine Nat.lt_of_not_le fun hle => hne (List.drop_eq_nil_of_le ?_)
    exact Nat.le_trans (List.length_take_le stop bytes) hle
  have hsplit := List.take_append_drop start (bytes.take stop)
  rw [List.take_take, Nat.min_eq_left (Nat.le_of_lt hlt)] at hsplit
  have hmem : lineFeed ∈ (bytes.take stop).drop start := by
    have hlast := congrArg List.getLast? hsplit
    rw [List.getLast?_append, List.getLast?_eq_some_getLast hne, Option.some_or] at hlast
    have hfeed := column_eq_zero_iff.mp hstop _ hlast.symm
    exact hfeed ▸ List.getLast_mem hne
  show (bytes.take start).count lineFeed < (bytes.take stop).count lineFeed
  rw [← hsplit, List.count_append]
  have := List.count_pos_iff.mpr hmem
  omega

end Point
end SourceMetrics
