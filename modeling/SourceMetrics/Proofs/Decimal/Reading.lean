/-
# Reading numbers

Numbers are read from their characters here, without regard to how they were
written:

    number    a minus or nothing, a whole, a part or nothing, a power or nothing
    whole     digits, at least one, and no zero before others
    part      a point with digits behind it, at least one
    power     e or E, a sign or nothing, digits, at least one

The parts of a written decimal are just these, so it reads as what it stands
for (`unsigned?_text`).  A float reads as its sign and the decimal of its
magnitude (`number?_of_writeFloat?`), which for a count is the count
(`written_ofCount`).
-/
import SourceMetrics.Proofs.Decimal.Counts

namespace SourceMetrics.Decimal

open Text

/-! ## The grammar -/

/-- The digits that a text starts with, at least one, and what stands behind
them. -/
def digits? (cs : List Char) : Option (List Char × List Char) :=
  if cs.takeWhile Char.isDigit = [] then none
  else some (cs.takeWhile Char.isDigit, cs.dropWhile Char.isDigit)

/-- The whole that a text starts with. -/
def whole? (cs : List Char) : Option (List Char × List Char) :=
  (digits? cs).filter fun (whole, _) => whole.head? ≠ some '0' || whole = ['0']

/-- The digits of the part that a text starts with. -/
def part? : List Char → Option (List Char × List Char)
  | '.' :: cs => digits? cs
  | cs => some ([], cs)

/-- The number with some digits and nothing else. -/
def natural? (cs : List Char) : Option ℕ :=
  if cs ≠ [] && cs.all Char.isDigit then some (Nat.ofDigitChars 10 cs 0) else none

/-- The same with a sign or none. -/
def integer? : List Char → Option ℤ
  | '-' :: cs => (natural? cs).map (-Int.ofNat ·)
  | '+' :: cs => (natural? cs).map Int.ofNat
  | cs => (natural? cs).map Int.ofNat

/-- The exponent of a power that is all of a text. -/
def power? : List Char → Option ℤ
  | [] => some 0
  | mark :: cs => if mark = 'e' ∨ mark = 'E' then integer? cs else none

/-- The number without a sign that is all of a text. -/
def unsigned? (cs : List Char) : Option ℚ := do
  let (whole, rest) ← whole? cs
  let (part, rest) ← part? rest
  let power ← power? rest
  return Nat.ofDigitChars 10 (whole ++ part) 0 * 10 ^ (power - part.length)

/-- The number that is all of a text. -/
def number? : List Char → Option ℚ
  | '-' :: cs => (unsigned? cs).map (- ·)
  | cs => unsigned? cs

/-! ## The parts are read -/

section
variable {digits rest : List Char} (hne : digits ≠ []) (hdigits : ∀ c ∈ digits, c.isDigit = true)
include hne hdigits

theorem digits?_append (hrest : Stops Char.isDigit rest) :
    digits? (digits ++ rest) = some (digits, rest) := by
  have htake : (digits ++ rest).takeWhile Char.isDigit = digits := by
    rw [List.takeWhile_append_of_pos hdigits, hrest.takeWhile_eq_nil, List.append_nil]
  have hdrop : (digits ++ rest).dropWhile Char.isDigit = rest := by
    have hall := List.takeWhile_append_dropWhile (p := Char.isDigit) (l := digits ++ rest)
    rw [htake] at hall
    exact List.append_cancel_left hall
  rw [digits?, htake, hdrop, if_neg hne]

theorem whole?_append (hlead : digits.head? = some '0' → digits = ['0'])
    (hrest : Stops Char.isDigit rest) : whole? (digits ++ rest) = some (digits, rest) := by
  have hkept : (decide (digits.head? ≠ some '0') || decide (digits = ['0'])) = true := by
    rw [Bool.or_eq_true, decide_eq_true_iff, decide_eq_true_iff]
    exact (Classical.em (digits.head? = some '0')).symm.imp id hlead
  rw [whole?, digits?_append hne hdigits hrest, Option.filter_some, if_pos hkept]

theorem natural?_eq : natural? digits = some (Nat.ofDigitChars 10 digits 0) := by
  have hall : (decide (digits ≠ []) && digits.all Char.isDigit) = true := by
    rw [decide_eq_true hne, Bool.true_and, List.all_eq_true]
    exact hdigits
  rw [natural?, if_pos hall]

end

namespace Layout

theorem part?_append (l : Layout) (power : Option ℤ) :
    part? (partText l.part ++ powerText power) = some (l.part.getD [], powerText power) := by
  have hne := l.part_ne_nil
  have hdigits := l.part_digits
  cases hpart : l.part with
  | none =>
      rw [partText, List.nil_append, Option.getD_none]
      unfold part?
      split
      next tail heq => exact absurd heq (powerText_ne_point _ _)
      next => rfl
  | some digits =>
      rw [hpart] at hne hdigits
      exact digits?_append (Option.some_inj.not.mp hne) hdigits (stops_powerText _)

theorem power?_powerText (power : Option ℤ) : power? (powerText power) = some (power.getD 0) := by
  cases power with
  | none => rfl
  | some k =>
      have hread := natural?_eq Nat.toDigits_ne_nil (isDigit_of_mem_toDigits k.natAbs)
      rw [Nat.ofDigitChars_ten_toDigits] at hread
      rw [powerText, toList_signed, Option.getD_some, power?, if_pos (.inl rfl)]
      by_cases hneg : k < 0
      · rw [if_pos hneg, integer?, hread]
        exact congrArg some (Int.eq_neg_natAbs_of_nonpos hneg.le).symm
      · rw [if_neg hneg, integer?, hread]
        exact congrArg some (Int.natAbs_of_nonneg (Int.not_lt.mp hneg))

/-- A written decimal reads as what its parts stand for. -/
theorem unsigned?_text (l : Layout) : unsigned? l.text = some l.value := by
  rw [unsigned?, text, whole?_append l.whole_ne_nil l.whole_digits l.whole_lead
    (stops_partText l.part l.power)]
  simp only [Option.bind_eq_bind, Option.bind_some, part?_append, power?_powerText]
  rfl

/-- The same behind no sign. -/
theorem number?_text (l : Layout) : number? l.text = some l.value := by
  rw [← unsigned?_text]
  unfold number?
  split
  next tail heq => exact absurd (isDigit_of_text_eq_cons heq) (by decide)
  next => rfl

end Layout

/-- A natural number reads as itself. -/
theorem number?_toString (n : ℕ) : number? (toString n).toList = some (n : ℚ) := by
  have hne : Nat.toDigits 10 n ≠ [] := Nat.toDigits_ne_nil
  have hlead : (Nat.toDigits 10 n).head? = some '0' → Nat.toDigits 10 n = ['0'] := by
    intro hhead
    have hzero : n = 0 := Nat.eq_zero_of_not_pos fun h => head?_toDigits_ne_zero h hhead
    exact hzero ▸ rfl
  let l : Layout :=
    ⟨Nat.toDigits 10 n, none, none, hne, isDigit_of_mem_toDigits n, hlead, (nomatch ·),
      List.forall_mem_nil _⟩
  have htext : l.text = (toString n).toList := by
    rw [Nat.toString_eq_repr, Nat.toList_repr]
    exact List.append_nil _
  have hvalue : l.value = (⟨n, 0⟩ : Digits).value := by
    refine Layout.value_eq 0 ?_ rfl
    rw [Option.getD_none, List.append_nil, Nat.ofDigitChars_ten_toDigits, Nat.pow_zero,
      Nat.one_mul]
  rw [← htext, l.number?_text, hvalue, Digits.value, zpow_zero, mul_one]

/-! ## Floats -/

/-- What is written of a float stands for this number. -/
def written (x : Float) : ℚ :=
  if isNegative x then -(ofMagnitude (magnitude x)).value else (ofMagnitude (magnitude x)).value

theorem signText_eq (x : Float) : signText x = if isNegative x then "-" else "" := by
  simp only [isNegative_iff]
  rfl

/-- A float that is written reads as the number it is written for. -/
theorem number?_of_writeFloat? {x : Float} {text : String} (h : writeFloat? x = some text) :
    number? text.toList = some (written x) := by
  obtain ⟨l, hl, hvalue⟩ := writes_ofMagnitude (magnitude_lt_two_pow x)
  rw [writeFloat?_eq] at h
  split at h
  · cases h
  · rw [← Option.some.inj h, String.toList_append, ← hl, signText_eq, written, ← hvalue]
    cases isNegative x with
    | true =>
        show (unsigned? l.text).map _ = _
        rw [l.unsigned?_text]
        rfl
    | false => exact l.number?_text

/-- A count is written as itself. -/
theorem written_ofCount {n : ℕ} (h : n ≤ 2 ^ 53) : written (Amount.ofCount n) = n := by
  rw [written, isNegative_ofCount h, if_neg Bool.false_ne_true, value_ofMagnitude_ofCount h]

end SourceMetrics.Decimal
