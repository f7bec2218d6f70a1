/-
# The text of a unit tells the unit

The text of a unit in one line tells how the unit is spelled
(`Json.spelled_eq_of_compact_eq`).  In the spelling of a unit it is clear from
the places what was counted and what was measured, which fields there are,
and where the measures of one unit end: so the spelling tells the unit, if it
tells apart the numbers that were measured (`UnitTree.eq_of_spelled`).

Finite floats are told apart by what is written of them
(`Json.eq_of_floatText_eq`); all others are written alike.  So units whose
values are finite have different texts when they differ
(`UnitTree.eq_of_compact_eq`).
-/
import SourceMetrics.Proofs.Decimal.Writing
import SourceMetrics.Proofs.Report.Json
import SourceMetrics.Report.Structured

namespace SourceMetrics

/-! ## Units -/

theorem UnitKind.name_injective : Function.Injective name := by
  intro kind kind'
  cases kind <;> cases kind' <;> decide

open Json

section
variable {α : Type} {number : α → String} {P : α → Prop}

/-- The spelling of entries tells them, if the numbers among them are told
apart. -/
theorem Json.entries_eq_of_spelled (hinj : ∀ x y, P x → P y → number x = number y → x = y) :
    ∀ es es' : List (Metric × α), (∀ e ∈ es, P e.2) → (∀ e ∈ es', P e.2) →
      spelledMembers number (es.map fun (m, x) => (m, Json.amount x)) =
        spelledMembers number (es'.map fun (m, x) => (m, .amount x)) → es = es'
  | [], [] => fun _ _ _ => rfl
  | [], e :: rest => fun _ _ h => by cases h
  | e :: rest, [] => fun _ _ h => by cases h
  | (m, x) :: rest, (m', x') :: rest' => by
      intro hes hes' h
      simp only [List.map_cons, spelledMembers, spelled, List.cons.injEq, Prod.mk.injEq,
        Json.amount.injEq] at h
      obtain ⟨⟨rfl, hvalue⟩, hrest⟩ := h
      obtain ⟨hx, hes⟩ := List.forall_mem_cons.mp hes
      obtain ⟨hx', hes'⟩ := List.forall_mem_cons.mp hes'
      rw [hinj x x' hx hx' hvalue, entries_eq_of_spelled hinj rest rest' hes hes' hrest]

theorem Measures.eq_of_spelled (hinj : ∀ x y, P x → P y → number x = number y → x = y)
    {ms ms' : Measures α} (hms : ∀ e ∈ ms.entries, P e.2) (hms' : ∀ e ∈ ms'.entries, P e.2)
    (h : ms.toJson.spelled number = ms'.toJson.spelled number) : ms = ms' := by
  rw [toJson, toJson, spelled, spelled, Json.object.injEq] at h
  have hentries := entries_eq_of_spelled hinj ms.entries ms'.entries hms hms' h
  obtain ⟨entries, hsorted⟩ := ms
  obtain ⟨entries', hsorted'⟩ := ms'
  cases hentries
  rfl

theorem Json.ofLines_injective {lines lines' : List Nat}
    (h : (ofLines lines : Json α).spelled number = (ofLines lines').spelled number) :
    lines = lines' := by
  rw [ofLines, ofLines, spelled, spelled, Json.list.injEq] at h
  induction lines generalizing lines' with
  | nil =>
      cases lines' with
      | nil => rfl
      | cons n rest => cases h
  | cons n rest ih =>
      cases lines' with
      | nil => cases h
      | cons n' rest' =>
          simp only [List.map_cons, spelledItems, spelled, List.cons.injEq, Json.amount.injEq] at h
          rw [Nat.repr_injective h.1, ih h.2]

namespace UnitTree

/-- Every value measured on the units of some trees has a property. -/
def EveryValue (P : α → Prop) (ts : List (UnitTree α)) : Prop :=
  ∀ u ∈ preorderList ts, ∀ e ∈ u.own.entries ++ u.measures.entries, P e.2

theorem everyValue_cons_iff {t : UnitTree α} {ts : List (UnitTree α)} :
    EveryValue P (t :: ts) ↔ (∀ e ∈ t.own.entries, P e.2) ∧ (∀ e ∈ t.measures.entries, P e.2) ∧
      EveryValue P t.children ∧ EveryValue P ts := by
  obtain ⟨kind, key, startLine, own, measures, lines, children⟩ := t
  simp only [EveryValue, preorderList, preorder, List.cons_append, List.forall_mem_cons,
    List.forall_mem_append, and_assoc]

/-- The optional field of a unit and the one behind it. -/
theorem lines_and_children_of_spelled {lines lines' : List Nat} {below below' : List (Json α)}
    (h : spelledMembers number
        ((if lines.isEmpty then [] else [("no_sonar_lines", ofLines lines)]) ++
          [("children", .list below)]) =
      spelledMembers number
        ((if lines'.isEmpty then [] else [("no_sonar_lines", ofLines lines')]) ++
          [("children", .list below')])) :
    lines = lines' ∧ spelledItems number below = spelledItems number below' := by
  cases lines with
  | nil =>
      cases lines' with
      | nil =>
          simp only [List.isEmpty_nil, if_true, List.nil_append, spelledMembers, spelled,
            List.cons.injEq, Prod.mk.injEq, Json.list.injEq, true_and, and_true] at h
          exact ⟨rfl, h⟩
      | cons n rest =>
          -- The names of the fields differ.
          have hname : some "children" = some "no_sonar_lines" := congrArg (·.head?.map Prod.fst) h
          exact absurd hname (by decide)
  | cons n rest =>
      cases lines' with
      | nil =>
          have hname : some "no_sonar_lines" = some "children" := congrArg (·.head?.map Prod.fst) h
          exact absurd hname (by decide)
      | cons n' rest' =>
          simp only [List.isEmpty_cons, Bool.false_eq_true, if_false, List.cons_append,
            List.nil_append, spelledMembers, List.cons.injEq, Prod.mk.injEq, true_and,
            and_true] at h
          refine ⟨ofLines_injective h.1, ?_⟩
          have hbelow := h.2
          rw [spelled, spelled, Json.list.injEq] at hbelow
          exact hbelow

mutual
/-- The spelling of a unit tells the unit, if the numbers measured on it are
told apart. -/
theorem eq_of_spelled (hinj : ∀ x y, P x → P y → number x = number y → x = y) :
    ∀ t t' : UnitTree α, EveryValue P [t] → EveryValue P [t'] →
      t.toJson.spelled number = t'.toJson.spelled number → t = t'
  | ⟨kind, key, startLine, own, measures, lines, below⟩,
      ⟨kind', key', startLine', own', measures', lines', below'⟩ => by
      intro ht ht' h
      obtain ⟨hown, hmeasures, hbelow, -⟩ := everyValue_cons_iff.mp ht
      obtain ⟨hown', hmeasures', hbelow', -⟩ := everyValue_cons_iff.mp ht'
      rw [toJson, toJson, spelled, spelled, Json.object.injEq] at h
      simp only [List.cons_append, List.nil_append, spelledMembers, spelled, List.cons.injEq,
        Prod.mk.injEq, Json.text.injEq, Json.amount.injEq, true_and] at h
      obtain ⟨hkind, rfl, hline, ho, hm, hrest⟩ := h
      obtain ⟨rfl, hlist⟩ := lines_and_children_of_spelled hrest
      obtain rfl := UnitKind.name_injective hkind
      obtain rfl := Nat.repr_injective hline
      obtain rfl := Measures.eq_of_spelled hinj hown hown' ho
      obtain rfl := Measures.eq_of_spelled hinj hmeasures hmeasures' hm
      rw [eqList_of_spelled hinj below below' hbelow hbelow' hlist]
theorem eqList_of_spelled (hinj : ∀ x y, P x → P y → number x = number y → x = y) :
    ∀ ts ts' : List (UnitTree α), EveryValue P ts → EveryValue P ts' →
      spelledItems number (toJsonList ts) = spelledItems number (toJsonList ts') → ts = ts'
  | [], [] => fun _ _ _ => rfl
  | [], t :: ts => fun _ _ h => by cases h
  | t :: ts, [] => fun _ _ h => by cases h
  | t :: ts, t' :: ts' => by
      intro ht ht' h
      rw [toJsonList, toJsonList, spelledItems, spelledItems, List.cons.injEq] at h
      have hfirst : ∀ {u : UnitTree α} {us : List (UnitTree α)}, EveryValue P (u :: us) →
          EveryValue P [u] ∧ EveryValue P us := by
        intro u us hu
        obtain ⟨ho, hm, hc, hus⟩ := everyValue_cons_iff.mp hu
        exact ⟨everyValue_cons_iff.mpr ⟨ho, hm, hc, fun _ hv => absurd hv List.not_mem_nil⟩, hus⟩
      rw [eq_of_spelled hinj t t' (hfirst ht).1 (hfirst ht').1 h.1,
        eqList_of_spelled hinj ts ts' (hfirst ht).2 (hfirst ht').2 h.2]
end

end UnitTree

end

/-! ## Units with finite values -/

/-- A float that is written is a word. -/
theorem Json.isWord_floatText (x : Float) : IsWord (floatText x) := by
  rw [floatText]
  cases h : Decimal.writeFloat? x with
  | none => exact ⟨by decide, by decide⟩
  | some text =>
      have hmarks : Decimal.Layout.marks.all isWordChar = true := by decide
      obtain ⟨hne, hchars⟩ := Decimal.chars_of_writeFloat? h
      refine ⟨hne, List.all_eq_true.mpr fun c hc => ?_⟩
      rcases hchars c hc with hdigit | hmark
      · exact isWordChar_of_isDigit hdigit
      · exact List.all_eq_true.mp hmarks c hmark

/-- Finite floats are told apart by what is written of them. -/
theorem Json.eq_of_floatText_eq {x y : Float} (hx : x.isFinite = true) (hy : y.isFinite = true)
    (h : floatText x = floatText y) : x = y := by
  obtain ⟨text, htext⟩ := Decimal.exists_writeFloat?_eq_some hx
  obtain ⟨text', htext'⟩ := Decimal.exists_writeFloat?_eq_some hy
  rw [floatText, floatText, htext, htext', Option.getD_some, Option.getD_some] at h
  exact Decimal.eq_of_writeFloat?_eq hx hy (by rw [htext, htext', h])

namespace UnitTree

/-- Every value measured on a unit and on those below it is finite. -/
def HasFiniteValues (t : UnitTree Float) : Prop := EveryValue (·.isFinite = true) [t]

/-- Trees of units whose values are finite are told apart by their texts in
one line. -/
theorem eq_of_compact_eq (t t' : UnitTree Float) (ht : t.HasFiniteValues)
    (ht' : t'.HasFiniteValues)
    (h : t.toJson.compact floatText = t'.toJson.compact floatText) : t = t' :=
  eq_of_spelled (fun _ _ => eq_of_floatText_eq) t t' ht ht'
    (spelled_eq_of_compact_eq isWord_floatText h)

/-! ### A key that has to be escaped -/

instance (t : UnitTree Float) : Decidable t.HasFiniteValues :=
  inferInstanceAs (Decidable (∀ u ∈ preorderList [t], ∀ e ∈ u.own.entries ++ u.measures.entries,
    e.2.isFinite = true))

/-- A file with a function in it, and with a key that has to be escaped. -/
def escapedFile (measures : Measures Float) : UnitTree Float :=
  ⟨.file, "a \"b\"\\\n\x01\u00e9", 1, .empty, measures, [3],
    [⟨.function, "", 2, measures, .empty, [], []⟩]⟩

theorem eq_of_compact_eq_escaped :
    let one := (Measures.empty.set Metric.statements (0.1 : Float)).set Metric.complexity 2
    let other := (Measures.empty.set Metric.complexity (2 : Float)).set Metric.statements 0.1
    (escapedFile one).HasFiniteValues ∧ (escapedFile other).HasFiniteValues ∧
    (escapedFile one).toJson.compact floatText = (escapedFile other).toJson.compact floatText ∧
    escapedFile one = escapedFile other := by
  intro one other
  have hone : (escapedFile one).HasFiniteValues := by decide +kernel
  have hother : (escapedFile other).HasFiniteValues := by decide +kernel
  have htext : (escapedFile one).toJson.compact floatText =
      (escapedFile other).toJson.compact floatText := by decide +kernel
  exact ⟨hone, hother, htext, eq_of_compact_eq _ _ hone hother htext⟩

end UnitTree
end SourceMetrics
