/-
# What painted text shows

On a terminal a painted text has control sequences among its characters, at
its start and end and behind each reset within it.  Its own characters are all
there, in order (`PaintedAs`), so a line that is put together of painted and
plain pieces shows what the pieces say (`appears_painted`, `Appears.append`).
-/
import SourceMetrics.Report.Paint

namespace SourceMetrics.Report

/-- A text with control sequences between its characters, which paint it and
show nothing. -/
inductive PaintedAs : List Char → List Char → Prop
  | nil : PaintedAs [] []
  | char (c : Char) {text shown : List Char} :
      PaintedAs text shown → PaintedAs (c :: text) (c :: shown)
  | sequence {code text shown : List Char} : (∀ c ∈ code, c.isDigit ∨ c = ';') →
      PaintedAs text shown → PaintedAs text ('\x1b' :: '[' :: (code ++ 'm' :: shown))

namespace PaintedAs

theorem refl (text : List Char) : PaintedAs text text := by
  induction text with
  | nil => exact .nil
  | cons c text ih => exact .char c ih

theorem append {text text' shown shown' : List Char} (h : PaintedAs text shown)
    (h' : PaintedAs text' shown') : PaintedAs (text ++ text') (shown ++ shown') := by
  induction h with
  | nil => exact h'
  | char c _ ih => exact .char c ih
  | @sequence code text shown hcode _ ih =>
      rw [List.cons_append, List.cons_append, List.append_assoc, List.cons_append]
      exact .sequence hcode ih

variable {text shown : List Char} {code : String}

/-- A control sequence shows nothing. -/
theorem sequence_append (hcode : ∀ c ∈ code.toList, c.isDigit ∨ c = ';')
    (h : PaintedAs text shown) : PaintedAs text (Paint.sequence code ++ shown) := by
  have hstart : "\x1b[".toList = ['\x1b', '['] := rfl
  rw [Paint.sequence, hstart, List.append_assoc, List.append_assoc, List.singleton_append]
  exact .sequence hcode h

/-- So paint that starts again shows nothing. -/
theorem renew (hcode : ∀ c ∈ code.toList, c.isDigit ∨ c = ';') (skip : Nat) :
    PaintedAs text (Paint.renew (Paint.sequence code) skip text) := by
  induction text generalizing skip with
  | nil => exact .nil
  | cons c rest ih =>
      cases skip with
      | zero =>
          rw [Paint.renew]
          split
          · exact .char c (ih _)
          · exact .char c (ih _)
      | succ skip =>
          rw [Paint.renew]
          split
          · exact .char c (sequence_append hcode (ih 0))
          · exact .char c (ih skip)

end PaintedAs

/-- The codes of paints consist of digits and semicolons. -/
theorem Paint.chars_code (p : Paint) : ∀ c ∈ p.code.toList, c.isDigit ∨ c = ';' := by
  have hall : p.code.toList.all fun c => c.isDigit || c = ';' := by cases p <;> decide
  simpa only [List.all_eq_true, Bool.or_eq_true, decide_eq_true_iff] using hall

/-- A text appears, painted where colours are wanted and as it is elsewhere. -/
def Appears (colours : Bool) (text shown : String) : Prop :=
  if colours then PaintedAs text.toList shown.toList else shown = text

namespace Appears

variable {colours : Bool} {text text' shown shown' : String}

theorem refl (colours : Bool) (text : String) : Appears colours text text := by
  cases colours with
  | true => exact PaintedAs.refl text.toList
  | false => rfl

theorem append (h : Appears colours text shown) (h' : Appears colours text' shown') :
    Appears colours (text ++ text') (shown ++ shown') := by
  cases colours with
  | true =>
      rw [Appears, if_pos rfl] at h h' ⊢
      rw [String.toList_append, String.toList_append]
      exact h.append h'
  | false =>
      rw [Appears, if_neg Bool.false_ne_true] at h h' ⊢
      rw [h, h']

theorem painted (colours : Bool) (p : Paint) (text : String) :
    Appears colours text (painted colours p text) := by
  cases colours with
  | true =>
      have hreset : ∀ c ∈ "0".toList, c.isDigit ∨ c = ';' :=
        List.forall_mem_singleton.mpr (.inl rfl)
      have hrenewed : PaintedAs text.toList (Paint.renew (Paint.sequence p.code) 0 text.toList) :=
        .renew p.chars_code 0
      have hbody := hrenewed.append (PaintedAs.sequence_append hreset .nil)
      rw [List.append_nil, List.append_nil] at hbody
      rw [Appears, if_pos rfl, Report.painted, if_pos rfl]
      simp only [String.toList_ofList, List.append_assoc]
      exact PaintedAs.sequence_append p.chars_code hbody
  | false => rfl

end Appears
end SourceMetrics.Report
