/-
# What the visitors of lines answer

The visitor of lines of code keeps the lines it has seen and adds one for
each line that is new, so the number of lines it keeps grows by what it adds
(`card_seeLines`).  All its answers but that at the start of a file have one
form (`question_linesOfCode`): outside of tokens there are no lines to see.
So in the course of a file the lines it keeps are those that the calls have
shown (`keeps_shown`), and what it has recorded adds up to their number
(`keeps_card`).

The visitor of lines answers at the start of a file, and nowhere else.
-/
import SourceMetrics.Proofs.Metric.Counts
import SourceMetrics.Proofs.Scan.Values
import SourceMetrics.Visitor.Lines
import SourceMetrics.Visitor.LinesOfCode

namespace SourceMetrics

/-! ## How many lines a set holds -/

namespace Descending

theorem length_put {line : Nat} {ls : List Nat} (h : line ∉ ls) :
    (put line ls).length = ls.length + 1 := by
  induction ls with
  | nil => rfl
  | cons l rest ih =>
      obtain ⟨hne, hrest⟩ := not_or.mp (mt List.mem_cons.mpr h)
      rw [put]
      split
      · rw [List.length_cons, ih hrest, List.length_cons]
      · rfl

/-- Lines from one on, the last first, are no more than the bound of the
lines. -/
theorem length_le {n : Nat} {ls : List Nat} (hsorted : ls.Pairwise (· > ·))
    (h : ∀ line ∈ ls, 1 ≤ line ∧ line ≤ n) : ls.length ≤ n := by
  induction ls generalizing n with
  | nil => exact Nat.zero_le n
  | cons l rest ih =>
      obtain ⟨hl, hrest⟩ := List.pairwise_cons.mp hsorted
      obtain ⟨hone, hle⟩ := h l List.mem_cons_self
      have hlength : rest.length ≤ l - 1 := by
        refine ih hrest fun line hline => ?_
        have hlt : l > line := hl line hline
        exact ⟨(h line (List.mem_cons_of_mem l hline)).1, by omega⟩
      rw [List.length_cons]
      omega

end Descending

namespace LineSet

/-- How many lines the set holds. -/
def card (s : LineSet) : Nat := s.toList.length

theorem card_insert {s : LineSet} {line : Nat} (h : line ∉ s) :
    (s.insert line).card = s.card + 1 := by
  rw [card, card, toList, toList, List.length_reverse, List.length_reverse]
  exact Descending.length_put h

theorem card_le {s : LineSet} {n : Nat} (h : ∀ line ∈ s, 1 ≤ line ∧ line ≤ n) : s.card ≤ n := by
  rw [card, toList, List.length_reverse]
  exact Descending.length_le s.sorted h

end LineSet

namespace Visitor

/-! ## Lines of code -/

/-- One line more is seen: the lines seen and how many of them were new. -/
def see (p : LineSet × Nat) (line : Nat) : LineSet × Nat :=
  if p.1.contains line then p else (p.1.insert line, p.2 + 1)

theorem mem_foldl_see (p : LineSet × Nat) (lines : List Nat) (x : Nat) :
    x ∈ (lines.foldl see p).1 ↔ x ∈ p.1 ∨ x ∈ lines := by
  induction lines generalizing p with
  | nil => simp only [List.foldl_nil, List.not_mem_nil, or_false]
  | cons line lines ih =>
      have hstep : x ∈ (see p line).1 ↔ x ∈ p.1 ∨ x = line := by
        rw [see]
        split
        next hseen =>
          refine ⟨.inl, ?_⟩
          rintro (hx | rfl)
          · exact hx
          · exact LineSet.contains_iff.mp hseen
        next => rw [LineSet.mem_insert, or_comm]
      rw [List.foldl_cons, ih, hstep, List.mem_cons, or_assoc]

theorem card_foldl_see (p : LineSet × Nat) (lines : List Nat) :
    (lines.foldl see p).1.card + p.2 = p.1.card + (lines.foldl see p).2 := by
  induction lines generalizing p with
  | nil => rfl
  | cons line lines ih =>
      have hrest := ih (see p line)
      have hstep : (see p line).1.card + p.2 = p.1.card + (see p line).2 := by
        rw [see]
        split
        next => rfl
        next hnew =>
          have hcard := LineSet.card_insert fun hmem => hnew (LineSet.contains_iff.mpr hmem)
          show (p.1.insert line).card + p.2 = p.1.card + (p.2 + 1)
          omega
      rw [List.foldl_cons]
      omega

theorem mem_seeLines {seen : LineSet} {lines : List Nat} {x : Nat} :
    x ∈ (seeLines seen lines).1 ↔ x ∈ seen ∨ x ∈ lines :=
  mem_foldl_see (seen, 0) lines x

theorem card_seeLines (seen : LineSet) (lines : List Nat) :
    (seeLines seen lines).1.card = seen.card + (seeLines seen lines).2 :=
  card_foldl_see (seen, 0) lines

variable {α : Type} [Amount α]

/-- The lines of code that a call shows. -/
def linesShown (hook : Hook) (n : Node) : List Nat :=
  match hook, n.token with
  | .token, some t => codeLines n t
  | _, _ => []

/-- Within a file, the visitor of lines of code sees the lines it is shown. -/
theorem question_linesOfCode (metric : Metric) {hook : Hook} (h : hook ≠ .file) (n : Node)
    (memory : FileMemory) (view : UnitView α) :
    (hook.question n : Engine.Question FileMemory α) (linesOfCode metric) memory view =
      ({ memory with codeLines := (seeLines memory.codeLines (linesShown hook n)).1 },
        List.replicate (seeLines memory.codeLines (linesShown hook n)).2 (.increment metric)) := by
  cases hook with
  | file => exact absurd rfl h
  | node => rfl
  | token =>
      unfold linesShown Hook.question
      cases n.token with
      | none => rfl
      | some t => rfl
  | leave => rfl
  | leaveFile => rfl

theorem token_of_mem_linesShown {hook : Hook} {n : Node} {line : Nat}
    (h : line ∈ linesShown hook n) : hook = .token := by
  unfold linesShown at h
  split at h
  · rfl
  · exact absurd h List.not_mem_nil

theorem mem_linesShown_token {n : Node} {line : Nat} :
    line ∈ linesShown .token n ↔ ∃ t, n.token = some t ∧ line ∈ codeLines n t := by
  unfold linesShown
  cases n.token with
  | none =>
      constructor
      · intro h
        exact absurd h List.not_mem_nil
      · rintro ⟨t, ht, -⟩
        cases ht
  | some t =>
      constructor
      · intro h
        exact ⟨t, rfl, h⟩
      · rintro ⟨t', ht', h⟩
        obtain rfl := Option.some.inj ht'
        exact h

/-- The lines of code of a token are those of its span, if it has a text and
is no comment. -/
theorem mem_codeLines {n : Node} {t : Token} {line : Nat} :
    line ∈ codeLines n t ↔
      (t.isComment = false ∧ t.text ≠ "") ∧ n.span.startLine ≤ line ∧ line ≤ n.span.lastLine := by
  rw [← Span.mem_lines, codeLines]
  have hempty : t.text.isEmpty = false ↔ t.text ≠ "" := by
    rw [← Bool.not_eq_true, String.isEmpty_iff]
  split
  next hskipped =>
    constructor
    · intro h
      exact absurd h List.not_mem_nil
    · rintro ⟨⟨hcomment, htext⟩, -⟩
      rw [hcomment, hempty.mpr htext] at hskipped
      cases hskipped
  next hcounted =>
    rw [Bool.not_eq_true, Bool.or_eq_false_iff, hempty] at hcounted
    exact (and_iff_right hcounted).symm

/-- The lines seen are those that the calls so far have shown. -/
theorem keeps_shown (metric : Metric) (root : Node) :
    (linesOfCode metric : Visitor FileMemory α).Keeps metric root fun heard memory _ =>
      ∀ line, line ∈ memory.codeLines ↔ ∃ n, (.token, n) ∈ heard ∧ line ∈ linesShown .token n where
  first _ _ line := by
    constructor
    · intro h
      exact absurd h (LineSet.not_mem_empty line)
    · rintro ⟨n, hn, -⟩
      cases List.mem_singleton.mp hn
  opening h := h
  later heard hook n memory view _ _ _ hhook h line := by
    rw [question_linesOfCode metric hhook]
    refine mem_seeLines.trans ?_
    rw [h line]
    constructor
    · rintro (⟨n', hn', hshown⟩ | hshown)
      · exact ⟨n', List.mem_append_left _ hn', hshown⟩
      · obtain rfl := token_of_mem_linesShown hshown
        exact ⟨n, List.mem_append_right _ (List.mem_singleton_self _), hshown⟩
    · rintro ⟨n', hn', hshown⟩
      rcases List.mem_append.mp hn' with hn' | hn'
      · exact .inl ⟨n', hn', hshown⟩
      · obtain ⟨rfl, rfl⟩ := Prod.mk.inj (List.mem_singleton.mp hn')
        exact .inr hshown

theorem getD_foldl_increment [LinearOrder α] [ExactCount α] (metric : Metric) (value : Option α)
    (k : Nat) :
    ((List.replicate k (Write.increment metric)).foldl (Write.revise metric) value).getD 0 =
      value.getD 0 + Amount.ofCount k := by
  induction k generalizing value with
  | zero =>
      rw [ExactCount.ofCount_zero, ExactAmount.add_zero]
      rfl
  | succ k ih =>
      have hstep : Write.revise metric value (.increment metric) = some (value.getD 0 + 1) :=
        if_pos rfl
      rw [List.replicate_succ, List.foldl_cons, hstep, ih, Option.getD_some, ExactCount.ofCount_succ,
        ExactAmount.add_assoc, ExactAmount.add_comm 1]

/-- Values add up to more by what one of them becomes larger by. -/
theorem sum_revised [LinearOrder α] [ExactAmount α] (before after : List (Option α))
    {value value' : Option α} {x : α} (h : value'.getD 0 = value.getD 0 + x) :
    ((before ++ value' :: after).map (·.getD 0)).sum =
      ((before ++ value :: after).map (·.getD 0)).sum + x := by
  rw [ExactAmount.sum_eq_of_perm (List.perm_middle.map _),
    ExactAmount.sum_eq_of_perm (List.perm_middle.map _), List.map_cons, List.map_cons,
    List.sum_cons, List.sum_cons, h, ExactAmount.add_assoc, ExactAmount.add_assoc,
    ExactAmount.add_comm x]

/-- The values recorded on all units add up to the number of lines seen. -/
theorem keeps_card [LinearOrder α] [ExactCount α] (metric : Metric) (root : Node) :
    (linesOfCode metric : Visitor FileMemory α).Keeps metric root fun _ memory values =>
      (values.map (·.getD 0)).sum = Amount.ofCount memory.codeLines.card where
  first _ _ := (ExactAmount.add_zero (0 : α)).trans ExactCount.ofCount_zero.symm
  opening {_ _ values} h := by
    rw [ExactAmount.sum_eq_of_perm ((List.perm_append_singleton none values).map _), ← h]
    exact ExactAmount.zero_add _
  later _ hook n memory view before after value hhook h := by
    rw [question_linesOfCode metric hhook]
    show _ = Amount.ofCount (seeLines memory.codeLines (linesShown hook n)).1.card
    rw [card_seeLines, ExactCount.ofCount_add, ← h]
    exact sum_revised before after (getD_foldl_increment metric value _)

/-! ## Lines -/

/-- Within a file, the visitor of lines has nothing to say. -/
theorem question_lines (metric : Metric) {hook : Hook} (h : hook ≠ .file) (n : Node)
    (memory : FileMemory) (view : UnitView α) :
    (hook.question n : Engine.Question FileMemory α) (lines metric) memory view = (memory, []) := by
  cases hook with
  | file => exact absurd rfl h
  | node => rfl
  | token =>
      unfold Hook.question
      cases n.token with
      | none => rfl
      | some t => rfl
  | leave => rfl
  | leaveFile => rfl

/-- The lines of the root stand on the unit of the file and nowhere else. -/
theorem keeps_lines (metric : Metric) (root : Node) :
    (lines metric : Visitor FileMemory α).Keeps metric root fun _ _ values =>
      ∃ below, values = some (0 + Amount.ofCount (linesSpanned root.span)) :: below ∧
        ∀ value ∈ below, value = none where
  first _ _ := by
    refine ⟨[], ?_, fun value h => absurd h List.not_mem_nil⟩
    exact congrArg (fun value => [value]) (if_pos rfl)
  opening h := by
    obtain ⟨below, rfl, hnone⟩ := h
    refine ⟨below ++ [none], rfl, fun value hvalue => ?_⟩
    rcases List.mem_append.mp hvalue with hvalue | hvalue
    · exact hnone value hvalue
    · exact List.mem_singleton.mp hvalue
  later _ hook n memory view _ _ _ hhook h := by
    rw [question_lines metric hhook]
    exact h

end Visitor
end SourceMetrics
