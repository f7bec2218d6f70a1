/-
# The shortest decimal reads back

The decimals that read back as a binary number are those of its interval
(`Binary.Reads`), and the decimal that is written is one of them
(`shortest_reads`).  That there is one with at most seventeen digits makes
the search for the shortest end with success: a grid of so many digits is
fine enough for every interval,

    grid  ≤  number / 10^16  <  4 quarters of the last place

of which an interval has four, two on each side of the number.  Where a power
of two has only one below it, the grid is finer than the two above.

Numbers that follow each other share an end of their intervals
(`low_ofBits_succ`), and of the two one has its ends in it and the other has
not.  So no decimal reads back as two numbers (`eq_of_reads`).
-/
import Mathlib.Algebra.Order.Field.Power
import Mathlib.Tactic.Linarith
import Mathlib.Tactic.NormNum
import Mathlib.Tactic.Positivity
import Mathlib.Tactic.Ring
import SourceMetrics.Decimal.Shortest

namespace SourceMetrics.Decimal

/-- What a decimal stands for. -/
def Digits.value (d : Digits) : ℚ := d.digits * 10 ^ d.exponent

/-! ## Fractions of natural numbers -/

theorem zpow_mul_pow_toNat_neg {a : ℚ} (ha : a ≠ 0) (z : ℤ) :
    a ^ z * a ^ (-z).toNat = a ^ z.toNat := by
  rw [← zpow_natCast, ← zpow_natCast, ← zpow_add₀ ha]
  congr 1
  omega

/-- Fractions with one denominator compare as their numerators. -/
theorem compare_eq_of_mul_eq {m n : ℕ} {x y d : ℚ} (hd : 0 < d) (hm : (m : ℚ) = x * d)
    (hn : (n : ℚ) = y * d) : compare m n = compare x y := by
  have hlt : m < n ↔ x < y := by
    rw [← @Nat.cast_lt ℚ, hm, hn, mul_lt_mul_iff_left₀ hd]
  have heq : m = n ↔ x = y := by
    rw [← @Nat.cast_inj ℚ, hm, hn, mul_left_inj' hd.ne']
  rcases lt_trichotomy x y with h | h | h
  · rw [compare_lt_iff_lt.mpr h, compare_lt_iff_lt.mpr (hlt.mpr h)]
  · rw [compare_eq_iff_eq.mpr h, compare_eq_iff_eq.mpr (heq.mpr h)]
  · have hgt : n < m := by
      rw [← @Nat.cast_lt ℚ, hm, hn]
      exact mul_lt_mul_of_pos_right h hd
    rw [compare_gt_iff_gt.mpr h, compare_gt_iff_gt.mpr hgt]

namespace Binary

/-! ## The interval of a number -/

/-- A quarter of the last place. -/
def quarter (b : Binary) : ℚ := 2 ^ (b.exponent - 2)

/-- What the number stands for. -/
def value (b : Binary) : ℚ := (4 * b.mantissa : ℕ) * b.quarter

/-- A number lies in the interval of those that read back as `b`. -/
def Reads (b : Binary) (x : ℚ) : Prop :=
  (b.low * b.quarter < x ∨ b.isClosed = true ∧ b.low * b.quarter = x) ∧
    (x < b.high * b.quarter ∨ b.isClosed = true ∧ b.high * b.quarter = x)

theorem quarter_pos (b : Binary) : 0 < b.quarter := zpow_pos (by norm_num) _

theorem mul_scale (b : Binary) (quarters : ℕ) :
    ((quarters * b.scale.1 : ℕ) : ℚ) = quarters * b.quarter * b.scale.2 := by
  have h := zpow_mul_pow_toNat_neg (show (2 : ℚ) ≠ 0 by norm_num) (b.exponent - 2)
  have hup : (b.scale.1 : ℚ) = 2 ^ (b.exponent - 2).toNat := Nat.cast_pow 2 _
  have hdown : (b.scale.2 : ℚ) = 2 ^ (-(b.exponent - 2)).toNat := Nat.cast_pow 2 _
  rw [Nat.cast_mul, hup, hdown, mul_assoc, quarter, h]

theorem tenfold_fst (n : ℕ) (e : ℤ) :
    ((tenfold n e).1 : ℚ) = n * 10 ^ e * (tenfold n e).2 := by
  have h := zpow_mul_pow_toNat_neg (show (10 : ℚ) ≠ 0 by norm_num) e
  have hnum : ((tenfold n e).1 : ℚ) = n * 10 ^ e.toNat :=
    (Nat.cast_mul n _).trans (congrArg _ (Nat.cast_pow 10 _))
  have hden : ((tenfold n e).2 : ℚ) = 10 ^ (-e).toNat := Nat.cast_pow 10 _
  rw [hnum, hden, mul_assoc, h]

theorem scale_snd_pos (b : Binary) : 0 < b.scale.2 := Nat.pow_pos (by decide)

theorem tenfold_snd_pos (n : ℕ) (e : ℤ) : 0 < (tenfold n e).2 := Nat.pow_pos (by decide)

theorem compareQuarters_eq (b : Binary) (quarters n : ℕ) (e : ℤ) :
    b.compareQuarters quarters n e = compare (quarters * b.quarter) (n * 10 ^ e : ℚ) := by
  show compare (quarters * b.scale.1 * (tenfold n e).2) ((tenfold n e).1 * b.scale.2) = _
  refine compare_eq_of_mul_eq (d := b.scale.2 * (tenfold n e).2) ?_ ?_ ?_
  · exact mul_pos (Nat.cast_pos.mpr b.scale_snd_pos) (Nat.cast_pos.mpr (tenfold_snd_pos n e))
  · rw [Nat.cast_mul, mul_scale, mul_assoc]
  · rw [Nat.cast_mul, tenfold_fst, mul_assoc, mul_comm (b.scale.2 : ℚ)]

theorem holds_iff (b : Binary) (n : ℕ) (e : ℤ) : b.holds n e = true ↔ b.Reads (n * 10 ^ e) := by
  simp only [holds, compareQuarters_eq, Reads, Bool.and_eq_true, Bool.or_eq_true, beq_iff_eq,
    compare_lt_iff_lt, compare_gt_iff_gt, compare_eq_iff_eq]

/-! ## The grids -/

/-- The neighbours of the number on a grid. -/
theorem floorAt_spec (b : Binary) (e : ℤ) :
    b.floorAt e * 10 ^ e ≤ b.value ∧ b.value < (b.floorAt e + 1) * 10 ^ e := by
  have hfloor : b.floorAt e =
      4 * b.mantissa * b.scale.1 * (tenfold 1 e).2 / (b.scale.2 * (tenfold 1 e).1) := rfl
  have hnum : ((4 * b.mantissa * b.scale.1 * (tenfold 1 e).2 : ℕ) : ℚ) =
      b.value * (b.scale.2 * (tenfold 1 e).2) := by
    rw [Nat.cast_mul, mul_scale, value, mul_assoc]
  have hden : ((b.scale.2 * (tenfold 1 e).1 : ℕ) : ℚ) =
      10 ^ e * (b.scale.2 * (tenfold 1 e).2) := by
    rw [Nat.cast_mul, tenfold_fst, Nat.cast_one, one_mul, mul_left_comm]
  have hd : (0 : ℚ) < b.scale.2 * (tenfold 1 e).2 :=
    mul_pos (Nat.cast_pos.mpr b.scale_snd_pos) (Nat.cast_pos.mpr (tenfold_snd_pos 1 e))
  have hpos : 0 < b.scale.2 * (tenfold 1 e).1 := by
    rw [← @Nat.cast_pos ℚ, hden]
    positivity
  constructor
  · have h := Nat.div_mul_le_self (4 * b.mantissa * b.scale.1 * (tenfold 1 e).2)
      (b.scale.2 * (tenfold 1 e).1)
    rw [← hfloor, ← @Nat.cast_le ℚ, hnum, Nat.cast_mul, hden, ← mul_assoc] at h
    exact le_of_mul_le_mul_right h hd
  · have h := Nat.lt_mul_div_succ (4 * b.mantissa * b.scale.1 * (tenfold 1 e).2) hpos
    rw [← hfloor, ← @Nat.cast_lt ℚ, hnum, Nat.cast_mul, hden, Nat.cast_succ, mul_comm (_ * _),
      ← mul_assoc (_ + _)] at h
    exact lt_of_mul_lt_mul_right h hd.le

theorem nearer_cases (b : Binary) (n : ℕ) (e : ℤ) : b.nearer n e = n ∨ b.nearer n e = n + 1 := by
  simp only [nearer]
  split
  · exact .inl rfl
  · exact .inr rfl
  · exact ite_eq_or_eq _ n (n + 1)

/-- What is found on a grid is a neighbour of the number that reads back. -/
theorem reads_of_onGrid {b : Binary} {e : ℤ} {d : Digits} (h : b.onGrid e = some d) :
    b.Reads d.value := by
  simp only [onGrid] at h
  split at h
  next hlow hhigh =>
    obtain rfl := Option.some.inj h
    rw [Digits.value, ← holds_iff]
    rcases b.nearer_cases (b.floorAt e) e with hnear | hnear
    · rw [hnear]
      exact (Bool.and_eq_true_iff.mp hlow).2
    · rw [hnear]
      exact hhigh
  next hlow _ =>
    obtain rfl := Option.some.inj h
    exact (b.holds_iff _ e).mp (Bool.and_eq_true_iff.mp hlow).2
  next _ hhigh =>
    obtain rfl := Option.some.inj h
    exact (b.holds_iff _ e).mp hhigh
  next => cases h

/-- A grid has a decimal if one of the neighbours of the number reads back. -/
theorem onGrid_ne_none {b : Binary} {e : ℤ}
    (h : b.floorAt e ≠ 0 ∧ b.Reads (b.floorAt e * 10 ^ e) ∨
      b.Reads ((b.floorAt e + 1 : ℕ) * 10 ^ e)) :
    b.onGrid e ≠ none := by
  simp only [← holds_iff] at h
  simp only [onGrid]
  split
  next => exact Option.some_ne_none _
  next => exact Option.some_ne_none _
  next => exact Option.some_ne_none _
  next hlow hhigh =>
    rcases h with ⟨hne, hholds⟩ | hholds
    · rw [hholds, decide_eq_true hne] at hlow
      cases hlow
    · rw [hholds] at hhigh
      cases hhigh

/-! ## The numbers of floating point -/

/-- What is known of the numbers that floating point holds in 64 bits. -/
structure IsFloat (b : Binary) : Prop where
  pos : 0 < b.mantissa
  lt : b.mantissa < 2 ^ 53
  /-- The distance to the next lower number is only half as large at a power
  of two. -/
  narrow : b.isNarrowBelow = true → b.mantissa = 2 ^ 52
  least : -1074 ≤ b.exponent

variable {b : Binary}

theorem IsFloat.low_mul (hb : b.IsFloat) :
    b.low * b.quarter = b.value - (if b.isNarrowBelow then 1 else 2) * b.quarter := by
  have hle : (if b.isNarrowBelow then 1 else 2) ≤ 4 * b.mantissa := by
    have hpos := hb.pos
    split <;> omega
  rw [low, value, Nat.cast_sub hle, sub_mul]
  split <;> norm_num

/-- What reads back as a number is positive, as the number is. -/
theorem IsFloat.pos_of_reads (hb : b.IsFloat) {x : ℚ} (h : b.Reads x) : 0 < x := by
  have hlow : 0 < b.low := by
    have hpos := hb.pos
    rw [low]
    split <;> omega
  have hend : 0 < b.low * b.quarter := mul_pos (Nat.cast_pos.mpr hlow) b.quarter_pos
  rcases h.1 with hx | ⟨-, hx⟩
  · exact hend.trans hx
  · exact hx ▸ hend

theorem high_mul (b : Binary) : b.high * b.quarter = b.value + 2 * b.quarter := by
  rw [high, value, Nat.cast_add, add_mul, Nat.cast_ofNat]

/-- The interval reaches up to the half of the last place. -/
theorem IsFloat.reads_of_above (hb : b.IsFloat) {x : ℚ} (hx : b.value ≤ x)
    (h : x < b.value + 2 * b.quarter) : b.Reads x := by
  have hq := b.quarter_pos
  refine ⟨.inl ?_, .inl (b.high_mul ▸ h)⟩
  rw [hb.low_mul]
  split <;> linarith

/-- It reaches as far down, unless the next number there is nearer. -/
theorem IsFloat.reads_of_below (hb : b.IsFloat) (hnarrow : b.isNarrowBelow = false) {x : ℚ}
    (hx : x ≤ b.value) (h : b.value - 2 * b.quarter < x) : b.Reads x := by
  have hq := b.quarter_pos
  refine ⟨.inl ?_, .inl ?_⟩
  · rw [hb.low_mul, hnarrow]
    exact h
  · rw [b.high_mul]
    linarith

/-- A grid with sixteen digits above the number's first has a decimal. -/
theorem IsFloat.onGrid_ne_none (hb : b.IsFloat) {e : ℤ} (he : 10 ^ 16 * 10 ^ e ≤ b.value) :
    b.onGrid e ≠ none := by
  obtain ⟨hlow, hhigh⟩ := b.floorAt_spec e
  have hgrid : (0 : ℚ) < 10 ^ e := by positivity
  have hq := b.quarter_pos
  have habove : (b.floorAt e + 1) * 10 ^ e < b.value + 2 * b.quarter →
      b.Reads ((b.floorAt e + 1 : ℕ) * 10 ^ e) := by
    intro h
    rw [Nat.cast_succ]
    exact hb.reads_of_above hhigh.le h
  refine Binary.onGrid_ne_none ?_
  cases hnarrow : b.isNarrowBelow with
  | true =>
      have hvalue : b.value = 4 * 2 ^ 52 * b.quarter := by
        rw [value, hb.narrow hnarrow]
        norm_num
      exact .inr (habove (by linarith))
  | false =>
      have hvalue : b.value < 4 * 2 ^ 53 * b.quarter := by
        rw [value]
        exact mul_lt_mul_of_pos_right (mod_cast Nat.mul_lt_mul_of_pos_left hb.lt (by decide)) hq
      rcases lt_or_ge (b.value - 2 * b.quarter) (b.floorAt e * 10 ^ e) with hnear | hfar
      · refine .inl ⟨fun hzero => ?_, hb.reads_of_below hnarrow hlow hnear⟩
        rw [hzero, Nat.cast_zero, zero_add, one_mul] at hhigh
        linarith
      · exact .inr (habove (by linarith))

/-! ## The first digit -/

theorem IsFloat.le_value (hb : b.IsFloat) : 10 ^ (-330 : ℤ) ≤ b.value := by
  have hone : (1 : ℚ) ≤ (4 * b.mantissa : ℕ) :=
    Nat.one_le_cast.mpr (Nat.mul_pos (by decide) hb.pos)
  calc (10 : ℚ) ^ (-330 : ℤ) = (10 ^ (-10 : ℤ)) ^ 33 := by rw [← zpow_natCast, ← zpow_mul]; rfl
    _ ≤ (2 ^ (-33 : ℤ)) ^ 33 := pow_le_pow_left₀ (by positivity) (by norm_num) 33
    _ = 2 ^ (-1089 : ℤ) := by rw [← zpow_natCast, ← zpow_mul]; rfl
    _ ≤ b.quarter := zpow_le_zpow_right₀ (by norm_num) (by have := hb.least; omega)
    _ ≤ b.value := le_mul_of_one_le_left b.quarter_pos.le hone

/-- The decade of a number starts with the power of ten before. -/
theorem IsFloat.decade_le (hb : b.IsFloat) : (10 : ℚ) ^ (b.decade - 1) ≤ b.value := by
  obtain ⟨hlow, hhigh⟩ := b.floorAt_spec (-330)
  have hunit : (0 : ℚ) < 10 ^ (-330 : ℤ) := by positivity
  have hfloor : b.floorAt (-330) ≠ 0 := by
    intro hzero
    have hle := hb.le_value
    rw [hzero, Nat.cast_zero, zero_add, one_mul] at hhigh
    linarith
  obtain ⟨places, hplaces⟩ : ∃ places, (Nat.toDigits 10 (b.floorAt (-330))).length = places + 1 :=
    Nat.exists_eq_add_one.mpr Nat.length_toDigits_pos
  have hpow : 10 ^ places ≤ b.floorAt (-330) := by
    rcases Nat.eq_zero_or_pos places with rfl | hpos
    · exact Nat.one_le_iff_ne_zero.mpr hfloor
    · rw [← Nat.not_lt, ← Nat.length_toDigits_le_iff (by decide) hpos, hplaces]
      omega
  have hdecade : b.decade - 1 = places + -330 := by
    rw [decade, hplaces]
    omega
  calc (10 : ℚ) ^ (b.decade - 1) = 10 ^ places * 10 ^ (-330 : ℤ) := by
        rw [hdecade, zpow_add₀ (by norm_num), zpow_natCast]
    _ ≤ b.floorAt (-330) * 10 ^ (-330 : ℤ) :=
        mul_le_mul_of_nonneg_right (mod_cast hpow) hunit.le
    _ ≤ b.value := hlow

/-- The shortest decimal reads back. -/
theorem IsFloat.shortest_reads (hb : b.IsFloat) : b.Reads b.shortest.value := by
  have hgrid : b.onGrid (b.decade - (17 : ℕ)) ≠ none := by
    refine hb.onGrid_ne_none ?_
    calc (10 : ℚ) ^ 16 * 10 ^ (b.decade - (17 : ℕ)) = 10 ^ (b.decade - 1) := by
          rw [← zpow_natCast, ← zpow_add₀ (by norm_num)]
          congr 1
          omega
      _ ≤ b.value := hb.decade_le
  cases hfound : (List.range 18).findSome? fun (k : ℕ) => b.onGrid (b.decade - (k : ℤ)) with
  | none =>
      have hall := List.findSome?_eq_none_iff.mp hfound
      exact absurd (hall 17 (List.mem_range.mpr (by decide))) hgrid
  | some d =>
      obtain ⟨k, -, hk⟩ := List.exists_of_findSome?_eq_some hfound
      have hshortest : b.shortest = d := by
        simp only [shortest, hfound, Option.getD_some]
      rw [hshortest]
      exact reads_of_onGrid hk

/-! ## Numbers that follow each other -/

theorem ofBits_of_lt {bits : ℕ} (h : bits < 2 ^ 52) : ofBits bits = ⟨bits, -1074, false⟩ := by
  have hfield : bits / twoTo 52 % twoTo 11 = 0 := by
    rw [show bits / twoTo 52 = 0 from Nat.div_eq_of_lt h, Nat.zero_mod]
  have hfraction : bits % twoTo 52 = bits := Nat.mod_eq_of_lt h
  simp only [ofBits, hfield, hfraction, if_true]

theorem ofBits_mul_add {field fraction : ℕ} (hpos : 0 < field) (hfield : field < 2 ^ 11)
    (hfraction : fraction < 2 ^ 52) :
    ofBits (2 ^ 52 * field + fraction) =
      ⟨2 ^ 52 + fraction, field - 1075, fraction = 0 && 1 < field⟩ := by
  have hhigh : (2 ^ 52 * field + fraction) / twoTo 52 % twoTo 11 = field := by
    show (2 ^ 52 * field + fraction) / 2 ^ 52 % 2 ^ 11 = field
    omega
  have hlow : (2 ^ 52 * field + fraction) % twoTo 52 = fraction := by
    show (2 ^ 52 * field + fraction) % 2 ^ 52 = fraction
    omega
  simp only [ofBits, hhigh, hlow, if_neg hpos.ne']
  rfl

/-- The bits of a number are a fraction, below a field for its exponent. -/
theorem bits_cases {bits : ℕ} (h : bits < 2 ^ 63) :
    bits < 2 ^ 52 ∨ ∃ field fraction, 0 < field ∧ field < 2 ^ 11 ∧ fraction < 2 ^ 52 ∧
      bits = 2 ^ 52 * field + fraction := by
  rcases Nat.lt_or_ge bits (2 ^ 52) with hsmall | hlarge
  · exact .inl hsmall
  · exact .inr ⟨bits / 2 ^ 52, bits % 2 ^ 52, by omega, by omega, by omega, by omega⟩

theorem isFloat_ofBits {bits : ℕ} (hpos : 0 < bits) (h : bits < 2 ^ 63) :
    (ofBits bits).IsFloat := by
  rcases bits_cases h with hsmall | ⟨field, fraction, hfield, hlt, hfraction, rfl⟩
  · rw [ofBits_of_lt hsmall]
    exact ⟨hpos, hsmall.trans (by decide), (nomatch ·), le_refl _⟩
  · rw [ofBits_mul_add hfield hlt hfraction]
    refine ⟨Nat.add_pos_left (by decide) _, Nat.add_lt_add_left hfraction _, fun hnarrow => ?_, ?_⟩
    · exact congrArg (2 ^ 52 + ·) (of_decide_eq_true (Bool.and_eq_true_iff.mp hnarrow).1)
    · show -1074 ≤ (field : ℤ) - 1075
      omega

/-- The ends of the interval belong to it for every other number. -/
theorem isClosed_ofBits {bits : ℕ} (h : bits < 2 ^ 63) :
    (ofBits bits).isClosed = true ↔ bits % 2 = 0 := by
  rcases bits_cases h with hsmall | ⟨field, fraction, hfield, hlt, hfraction, rfl⟩
  · rw [ofBits_of_lt hsmall, isClosed, decide_eq_true_iff]
  · rw [ofBits_mul_add hfield hlt hfraction, isClosed, decide_eq_true_iff]
    show (2 ^ 52 + fraction) % 2 = 0 ↔ _
    omega

/-- The upper end of the interval of the number with some bits. -/
def upperEnd (bits : ℕ) : ℚ := (ofBits bits).high * (ofBits bits).quarter

/-- The interval of a number starts where that of the number before ends. -/
theorem low_ofBits_succ {bits : ℕ} (h : bits + 1 < 2 ^ 63) :
    (ofBits (bits + 1)).low * (ofBits (bits + 1)).quarter = upperEnd bits := by
  rcases bits_cases ((Nat.lt_succ_self bits).trans h) with
    hsmall | ⟨field, fraction, hfield, hlt, hfraction, rfl⟩
  · rcases Nat.lt_or_ge (bits + 1) (2 ^ 52) with hnext | hnext
    · rw [upperEnd, ofBits_of_lt hsmall, ofBits_of_lt hnext]
      have hends : 4 * (bits + 1) - 2 = 4 * bits + 2 := by omega
      exact congrArg (fun n : ℕ => (n * _ : ℚ)) hends
    · -- The least number with a field for its exponent.
      obtain rfl : bits = 2 ^ 52 - 1 := by omega
      rw [upperEnd, ofBits_of_lt hsmall]
      rfl
  · rcases Nat.lt_or_ge (fraction + 1) (2 ^ 52) with hnext | hnext
    · rw [upperEnd, ofBits_mul_add hfield hlt hfraction, Nat.add_assoc,
        ofBits_mul_add hfield hlt hnext]
      have hends : 4 * (2 ^ 52 + (fraction + 1)) - 2 = 4 * (2 ^ 52 + fraction) + 2 := by omega
      exact congrArg (fun n : ℕ => (n * _ : ℚ)) hends
    · -- The next power of two.
      obtain rfl : fraction = 2 ^ 52 - 1 := by omega
      have hbits : 2 ^ 52 * field + (2 ^ 52 - 1) + 1 = 2 ^ 52 * (field + 1) + 0 := by omega
      rw [upperEnd, ofBits_mul_add hfield hlt hfraction, hbits,
        ofBits_mul_add (Nat.succ_pos field) (by omega) (by decide)]
      have hnarrow : (decide (0 = 0) && decide (1 < field + 1)) = true :=
        Bool.and_eq_true_iff.mpr ⟨rfl, decide_eq_true (Nat.succ_lt_succ hfield)⟩
      have hquarter : (2 : ℚ) ^ (((field + 1 : ℕ) : ℤ) - 1075 - 2) =
          2 * 2 ^ ((field : ℤ) - 1075 - 2) := by
        rw [← zpow_one_add₀ two_ne_zero]
        congr 1
        omega
      rw [hnarrow]
      show ((4 * (2 ^ 52 + 0) - 1 : ℕ) : ℚ) * 2 ^ (((field + 1 : ℕ) : ℤ) - 1075 - 2) =
        (4 * (2 ^ 52 + (2 ^ 52 - 1)) + 2 : ℕ) * 2 ^ ((field : ℤ) - 1075 - 2)
      rw [hquarter]
      norm_num
      ring

theorem upperEnd_lt_succ {bits : ℕ} (h : bits + 1 < 2 ^ 63) :
    upperEnd bits < upperEnd (bits + 1) := by
  rw [← low_ofBits_succ h, upperEnd]
  refine mul_lt_mul_of_pos_right (Nat.cast_lt.mpr ?_) (quarter_pos _)
  exact Nat.lt_of_le_of_lt (Nat.sub_le _ _) (Nat.lt_add_of_pos_right (by decide))

theorem upperEnd_le {bits bits' : ℕ} (hle : bits ≤ bits') (h : bits' < 2 ^ 63) :
    upperEnd bits ≤ upperEnd bits' := by
  induction bits', hle using Nat.le_induction with
  | base => exact le_refl _
  | succ n _ ih => exact (ih (Nat.lt_of_succ_lt h)).trans (upperEnd_lt_succ h).le

/-- No decimal reads back as two numbers. -/
theorem not_reads_of_lt {bits bits' : ℕ} (hlt : bits < bits') (h : bits' < 2 ^ 63) {x : ℚ}
    (hx : (ofBits bits).Reads x) : ¬ (ofBits bits').Reads x := by
  obtain ⟨previous, rfl⟩ := Nat.exists_eq_add_one.mpr (Nat.zero_lt_of_lt hlt)
  intro hx'
  have hupper := hx.2
  have hlower := hx'.1
  rw [low_ofBits_succ h, isClosed_ofBits h] at hlower
  rw [isClosed_ofBits (hlt.trans h)] at hupper
  change x < upperEnd bits ∨ _ ∧ upperEnd bits = x at hupper
  rcases Nat.eq_or_lt_of_le (Nat.le_of_lt_succ hlt) with rfl | hfar
  · -- They follow each other, and the end that they share belongs to one.
    rcases hupper with hupper | ⟨heven, hupper⟩
    · rcases hlower with hlower | ⟨-, hlower⟩
      · exact absurd (hlower.trans hupper) (lt_irrefl _)
      · exact absurd (hlower ▸ hupper) (lt_irrefl _)
    · rcases hlower with hlower | ⟨hodd, -⟩
      · exact absurd (hupper ▸ hlower) (lt_irrefl _)
      · omega
  · have hapart : upperEnd bits < upperEnd previous := by
      refine (upperEnd_lt_succ ?_).trans_le (upperEnd_le hfar ?_)
      · omega
      · omega
    have hxle : x ≤ upperEnd bits := by
      rcases hupper with hupper | ⟨-, hupper⟩
      · exact hupper.le
      · exact hupper.ge
    have hlex : upperEnd previous ≤ x := by
      rcases hlower with hlower | ⟨-, hlower⟩
      · exact hlower.le
      · exact hlower.le
    exact absurd (hapart.trans_le (hlex.trans hxle)) (lt_irrefl _)

theorem eq_of_reads {bits bits' : ℕ} (h : bits < 2 ^ 63) (h' : bits' < 2 ^ 63) {x : ℚ}
    (hx : (ofBits bits).Reads x) (hx' : (ofBits bits').Reads x) : bits = bits' := by
  rcases Nat.lt_trichotomy bits bits' with hlt | heq | hlt
  · exact absurd hx' (not_reads_of_lt hlt h' hx)
  · exact heq
  · exact absurd hx (not_reads_of_lt hlt h hx')

end Binary
end SourceMetrics.Decimal
