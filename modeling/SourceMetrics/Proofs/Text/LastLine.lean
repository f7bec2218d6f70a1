/-
# The last line of a text

A text is what stands before its last line, the last line, and the end of
that, where it has one:

    a ↵ b ↵ c           a ↵ b ↵ c ↵
    beforeLast ─ c      beforeLast ─ c ─ ↵

Lines are told apart from left to right, while the last one is found from the
right.  `getLast?_linesFrom` says that the two agree.

Counted in characters, a last line is no longer than in bytes.  `reach` is
what it comes to when a column in bytes is expected and one in characters
given: the offset that lies as many bytes into the last line as the line has
characters.  It falls short of the end of the line by the bytes the line has
more than characters (`reach_add_continuing`).
-/
import Mathlib.Data.List.DropRight
import SourceMetrics.Proofs.SyntaxTree.Position

namespace SourceMetrics.Text

/-! ## The end of a text -/

/-- Some characters without the end of their last line, where it has one. -/
def unended (cs : List Char) : List Char :=
  match cs.reverse with
  | '\n' :: reversed => endedLine reversed
  | _ => cs

/-- The last line of some characters. -/
def lastLine (cs : List Char) : List Char := (unended cs).rtakeWhile (· ≠ '\n')

/-- What stands before the last line. -/
def beforeLast (cs : List Char) : List Char := (unended cs).rdropWhile (· ≠ '\n')

theorem beforeLast_append_lastLine (cs : List Char) : beforeLast cs ++ lastLine cs = unended cs :=
  List.rdropWhile_append_rtakeWhile

theorem lineFeed_not_mem_lastLine (cs : List Char) : '\n' ∉ lastLine cs := by
  intro hmem
  have hne := List.mem_rtakeWhile_imp hmem
  exact of_decide_eq_true hne rfl

/-- What stands before the last line ends with a line feed, if there is
anything. -/
theorem beforeLast_cases (cs : List Char) :
    beforeLast cs = [] ∨ ∃ init, beforeLast cs = init ++ ['\n'] := by
  by_cases hne : beforeLast cs = []
  · exact .inl hne
  · have hlast : (beforeLast cs).getLast hne = '\n' := by
      have hstops := List.rdropWhile_last_not _ _ hne
      exact Decidable.of_not_not fun heq => hstops (decide_eq_true heq)
    exact .inr ⟨_, by rw [← hlast, List.dropLast_append_getLast]⟩

theorem unended_lineFeed (cs : List Char) : unended (cs ++ ['\n']) = endedLine cs.reverse := by
  rw [unended, List.reverse_append]
  rfl

theorem unended_concat (cs : List Char) {c : Char} (h : c ≠ '\n') :
    unended (cs ++ [c]) = cs ++ [c] := by
  unfold unended
  rw [List.reverse_append]
  split
  · next heq => exact absurd (List.cons.inj heq).1 h
  · rfl

/-- An ended line is what was read of it, but for a carriage return. -/
theorem endedLine_eq (reversed : List Char) :
    reversed.reverse = endedLine reversed ∨ reversed.reverse = endedLine reversed ++ ['\r'] := by
  unfold endedLine
  split
  · exact .inr List.reverse_cons
  · exact .inl rfl

theorem endedLine_cons {c : Char} (h : c ≠ '\r') (reversed : List Char) :
    endedLine (c :: reversed) = (c :: reversed).reverse := by
  unfold endedLine
  split
  · next heq => exact absurd (List.cons.inj heq).1 h
  · rfl

theorem endedLine_append (reversed earlier : List Char) :
    endedLine (reversed ++ '\n' :: earlier) = earlier.reverse ++ '\n' :: endedLine reversed := by
  have hreverse : ∀ more : List Char, (more ++ '\n' :: earlier).reverse =
      earlier.reverse ++ '\n' :: more.reverse := fun more => by
    rw [List.reverse_append, List.reverse_cons, List.append_assoc]
    rfl
  cases reversed with
  | nil => exact hreverse []
  | cons c reversed =>
      by_cases hc : c = '\r'
      · subst hc
        exact hreverse reversed
      · rw [List.cons_append, endedLine_cons hc, endedLine_cons hc, ← List.cons_append, hreverse]

theorem not_mem_endedLine {reversed : List Char} (h : '\n' ∉ reversed) :
    '\n' ∉ endedLine reversed := by
  rw [← List.mem_reverse] at h
  rcases endedLine_eq reversed with heq | heq
  · exact heq ▸ h
  · rw [heq, List.mem_append, not_or] at h
    exact h.1

/-! ## The last line, from the left -/

theorem unended_append (front : List Char) {cs : List Char} (h : cs ≠ []) :
    unended (front ++ '\n' :: cs) = front ++ '\n' :: unended cs := by
  obtain ⟨init, c, rfl⟩ := (List.eq_nil_or_concat' _).resolve_left h
  have hconcat : front ++ '\n' :: (init ++ [c]) = front ++ '\n' :: init ++ [c] := by
    rw [List.append_assoc, List.cons_append]
  rw [hconcat]
  by_cases hc : c = '\n'
  · subst hc
    rw [unended_lineFeed, unended_lineFeed, List.reverse_append, List.reverse_cons, List.append_assoc,
      List.singleton_append, endedLine_append, List.reverse_reverse]
  · rw [unended_concat _ hc, unended_concat _ hc, hconcat]

/-- The last line of a text is that of what follows any of its line feeds, if
something does. -/
theorem lastLine_append (front : List Char) {cs : List Char} (h : cs ≠ []) :
    lastLine (front ++ '\n' :: cs) = lastLine cs := by
  rw [lastLine, unended_append front h, lastLine, List.rtakeWhile, List.rtakeWhile,
    List.reverse_append, List.reverse_cons, List.append_assoc, List.takeWhile_append]
  split
  · next hall =>
      -- The line feed ends what is taken, even if all that follows it was.
      have hstop : ∀ more : List Char,
          List.takeWhile (fun c => decide (c ≠ '\n')) (['\n'] ++ more) = [] := fun _ => rfl
      rw [hstop, List.append_nil, (List.takeWhile_prefix _).eq_of_length hall]
  · rfl

theorem lastLine_of_not_mem {cs : List Char} (h : '\n' ∉ unended cs) : lastLine cs = unended cs :=
  List.rtakeWhile_eq_self_iff.mpr fun _ hc => decide_eq_true fun heq => h (heq ▸ hc)

/-- The last of the lines that are told apart is the last line. -/
theorem getLast?_linesFrom {reversed : List Char} (h : '\n' ∉ reversed) {cs : List Char}
    (hne : reversed.reverse ++ cs ≠ []) :
    (linesFrom reversed cs).getLast? = some (lastLine (reversed.reverse ++ cs)) := by
  induction cs generalizing reversed with
  | nil =>
      cases reversed with
      | nil => exact absurd rfl hne
      | cons c reversed =>
          have hc : c ≠ '\n' := fun heq => h (heq ▸ List.mem_cons_self)
          have hunended : unended (c :: reversed).reverse = (c :: reversed).reverse := by
            rw [List.reverse_cons, unended_concat _ hc]
          have hmem : '\n' ∉ unended (c :: reversed).reverse := by
            rwa [hunended, List.mem_reverse]
          rw [List.append_nil, lastLine_of_not_mem hmem, hunended]
          rfl
  | cons c cs ih =>
      rw [linesFrom]
      by_cases hc : c = '\n'
      · subst hc
        rw [if_pos rfl, List.getLast?_cons]
        cases cs with
        | nil =>
            have hunended : unended (reversed.reverse ++ ['\n']) = endedLine reversed := by
              rw [unended_lineFeed, List.reverse_reverse]
            rw [lastLine_of_not_mem (hunended ▸ not_mem_endedLine h), hunended]
            rfl
        | cons c cs =>
            rw [ih List.not_mem_nil (List.cons_ne_nil c cs), lastLine_append _ (List.cons_ne_nil c cs)]
            rfl
      · have hmem : '\n' ∉ c :: reversed := by
          rw [List.mem_cons, not_or]
          exact ⟨fun heq => hc heq.symm, h⟩
        have hread : (c :: reversed).reverse ++ cs = reversed.reverse ++ c :: cs := by
          rw [List.reverse_cons, List.append_assoc]
          rfl
        rw [if_neg hc, ih hmem (hread ▸ hne), hread]

/-- There are as many lines before the last as line feeds. -/
theorem length_lines_eq {text : String} (h : text.toList ≠ []) :
    (lines text).length = (beforeLast text.toList).count '\n' + 1 := by
  have hcount := congrArg (List.count '\n') (beforeLast_append_lastLine text.toList)
  rw [List.count_append, List.count_eq_zero_of_not_mem (lineFeed_not_mem_lastLine _)] at hcount
  rw [length_lines]
  obtain ⟨init, c, hconcat⟩ := (List.eq_nil_or_concat' _).resolve_left h
  rw [hconcat] at hcount ⊢
  rw [isUnfinished, List.getLast?_concat, List.count_append]
  by_cases hc : c = '\n'
  · subst hc
    have hended : init.count '\n' = (endedLine init.reverse).count '\n' := by
      have hread := endedLine_eq init.reverse
      rw [List.reverse_reverse] at hread
      rcases hread with heq | heq
      · exact congrArg (List.count '\n') heq
      · have hsplit := congrArg (List.count '\n') heq
        rwa [List.count_append] at hsplit
    rw [unended_lineFeed, ← hended] at hcount
    rw [← hcount]
    rfl
  · have hnone : [c].count '\n' = 0 := List.count_eq_zero_of_not_mem (by simpa using Ne.symm hc)
    rw [unended_concat _ hc, List.count_append, hnone] at hcount
    rw [hnone, ← hcount, Option.any_some, decide_eq_true hc]
    rfl

/-! ## In bytes -/

/-- The bytes of some characters. -/
def encoded (cs : List Char) : List UInt8 := cs.flatMap String.utf8EncodeChar

theorem encoded_append (cs ds : List Char) : encoded (cs ++ ds) = encoded cs ++ encoded ds :=
  List.flatMap_append

theorem count_encoded (cs : List Char) : (encoded cs).count lineFeed = cs.count '\n' := by
  have hcount := count_bytes (String.ofList cs)
  rwa [bytes_eq, String.toList_ofList] at hcount

theorem length_encoded_cons (c : Char) (cs : List Char) :
    (encoded (c :: cs)).length = c.utf8Size + (encoded cs).length := by
  rw [encoded, List.flatMap_cons, List.length_append, String.length_utf8EncodeChar]
  rfl

/-- Every character has a byte or more. -/
theorem length_le_encoded (cs : List Char) : cs.length ≤ (encoded cs).length := by
  induction cs with
  | nil => exact Nat.le_refl 0
  | cons c cs ih =>
      have hpos := c.utf8Size_pos
      rw [List.length_cons, length_encoded_cons]
      omega

theorem length_encoded_eq_iff (cs : List Char) :
    (encoded cs).length = cs.length ↔ ∀ c ∈ cs, c.utf8Size = 1 := by
  induction cs with
  | nil => exact ⟨fun _ _ hc => absurd hc List.not_mem_nil, fun _ => rfl⟩
  | cons c cs ih =>
      have hpos := c.utf8Size_pos
      have hle := length_le_encoded cs
      rw [List.forall_mem_cons, ← ih, List.length_cons, length_encoded_cons]
      omega

/-- The offset that lies as many bytes into the last line of a text as the
line has characters. -/
def reach (text : String) : Nat :=
  (encoded (beforeLast text.toList)).length + (lastLine text.toList).length

/-- From there to the end of the last line are as many bytes as the line has
more than characters. -/
theorem reach_add_continuing (text : String) :
    reach text + ((encoded (lastLine text.toList)).length - (lastLine text.toList).length) =
      (encoded (unended text.toList)).length := by
  have hle := length_le_encoded (lastLine text.toList)
  rw [← beforeLast_append_lastLine, encoded_append, List.length_append, reach]
  omega

/-- A text reaches to the end of its last line exactly if each character of the
line has one byte. -/
theorem reach_eq_iff (text : String) :
    reach text = (encoded (unended text.toList)).length ↔
      ∀ c ∈ lastLine text.toList, c.utf8Size = 1 := by
  have hle := length_le_encoded (lastLine text.toList)
  rw [← reach_add_continuing, ← length_encoded_eq_iff]
  omega

theorem unended_isPrefix (cs : List Char) : unended cs <+: cs := by
  rcases List.eq_nil_or_concat' cs with rfl | ⟨init, c, rfl⟩
  · exact List.prefix_rfl
  · by_cases hc : c = '\n'
    · subst hc
      rw [unended_lineFeed]
      have hread := endedLine_eq init.reverse
      rw [List.reverse_reverse] at hread
      have hinit : endedLine init.reverse <+: init := by
        rcases hread with heq | heq
        · exact ⟨[], by rw [List.append_nil, ← heq]⟩
        · exact ⟨['\r'], heq.symm⟩
      exact hinit.trans (List.prefix_append _ _)
    · exact ⟨[], by rw [List.append_nil, unended_concat _ hc]⟩

/-- The bytes of a text are those before its last line, those of the line, and
those that end it. -/
theorem bytes_eq_append (text : String) :
    ∃ ending, bytes text =
      encoded (beforeLast text.toList) ++ (encoded (lastLine text.toList) ++ ending) := by
  obtain ⟨ending, hending⟩ := unended_isPrefix text.toList
  refine ⟨encoded ending, ?_⟩
  rw [← List.append_assoc, ← encoded_append, beforeLast_append_lastLine, ← encoded_append, hending]
  exact bytes_eq text

theorem reach_le_length (text : String) : reach text ≤ (bytes text).length := by
  obtain ⟨ending, hbytes⟩ := bytes_eq_append text
  have hline := length_le_encoded (lastLine text.toList)
  rw [hbytes, List.length_append, List.length_append, reach]
  omega

/-- The point of the offset has the row of the last line, and as many columns
as the line has characters. -/
theorem ofOffset_reach (text : String) :
    Point.ofOffset (bytes text) (reach text) =
      ⟨(beforeLast text.toList).count '\n', (lastLine text.toList).length⟩ := by
  obtain ⟨ending, hbytes⟩ := bytes_eq_append text
  have hfront : encoded (beforeLast text.toList) = [] ∨
      ∃ init, encoded (beforeLast text.toList) = init ++ [lineFeed] := by
    rcases beforeLast_cases text.toList with hnil | ⟨init, hinit⟩
    · exact .inl (congrArg encoded hnil)
    · exact .inr ⟨encoded init, (congrArg encoded hinit).trans (encoded_append init ['\n'])⟩
  have hline : lineFeed ∉ encoded (lastLine text.toList) := by
    intro hmem
    obtain ⟨c, hc, hb⟩ := List.mem_flatMap.mp hmem
    exact lineFeed_not_mem_encode (fun heq => lineFeed_not_mem_lastLine _ (heq ▸ hc)) hb
  have hcolumn := length_le_encoded (lastLine text.toList)
  rw [hbytes, reach, Point.ofOffset_append ending hfront hline hcolumn, count_encoded]

end SourceMetrics.Text
