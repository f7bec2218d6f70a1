/-
# What a float is rounded to

The bits of a finite float stand for one rational number (`exact`).  The
integer that the float is rounded to is the nearest to this number; of two
that are equally near, it is the one further from zero (`IsNearest`).

    value - 1/2  <  nearest  ≤  value + 1/2      for numbers without a sign

A count of at most 53 bits is kept as it is, so that it stands for itself
(`exact_ofCount`) and is rounded to itself (`nearestInt_ofCount`).
-/
import SourceMetrics.Metric.Measures
import SourceMetrics.Proofs.Decimal.Writing
import SourceMetrics.Proofs.Metric.FloatCounts

namespace SourceMetrics.Decimal

/-! ## Nearest integers -/

/-- An integer is nearest to a number; of two that are equally near, it is the
one further from zero. -/
def IsNearest (x : ℚ) (n : ℤ) : Prop :=
  |x - n| < 1 / 2 ∨ |x - n| = 1 / 2 ∧ |x| < |(n : ℚ)|

namespace IsNearest

variable {x : ℚ} {n : ℤ}

theorem abs_sub_le (h : IsNearest x n) : |x - n| ≤ 1 / 2 := h.elim le_of_lt fun h => h.1.le

theorem neg (h : IsNearest x n) : IsNearest (-x) (-n) := by
  have hdistance : |-x - ((-n : ℤ) : ℚ)| = |x - n| := by
    rw [Int.cast_neg, sub_neg_eq_add, neg_add_eq_sub, abs_sub_comm]
  rw [IsNearest, hdistance, Int.cast_neg, abs_neg, abs_neg]
  exact h

/-- An integer is nearest to itself alone. -/
theorem eq_of_intCast {k : ℤ} (h : IsNearest (k : ℚ) n) : n = k := by
  have hdistance := h.abs_sub_le
  rw [← Int.cast_sub, ← Int.cast_abs] at hdistance
  have hlt : |k - n| < 1 := by
    rw [← @Int.cast_lt ℚ, Int.cast_one]
    linarith
  exact (sub_eq_zero.mp (Int.abs_lt_one_iff.mp hlt)).symm

end IsNearest

/-! ## Numbers without a sign -/

namespace Binary

theorem value_eq (b : Binary) : b.value = b.mantissa * 2 ^ b.exponent := by
  rw [value, quarter, Nat.cast_mul, zpow_sub₀ (by norm_num)]
  norm_num
  ring

theorem value_nonneg (b : Binary) : 0 ≤ b.value :=
  mul_nonneg (Nat.cast_nonneg _) b.quarter_pos.le

theorem isNearest_nearest (b : Binary) : IsNearest b.value b.nearest := by
  let up := twoTo b.exponent.toNat
  let down := twoTo (-b.exponent).toNat
  have hpos : 0 < down := Nat.pow_pos (by decide)
  have hdown : (0 : ℚ) < down := Nat.cast_pos.mpr hpos
  have hscaled : b.value * down = b.mantissa * up := by
    have hup : (up : ℚ) = 2 ^ b.exponent.toNat := Nat.cast_pow 2 _
    have hdown : (down : ℚ) = 2 ^ (-b.exponent).toNat := Nat.cast_pow 2 _
    rw [value_eq, hup, hdown, mul_assoc, zpow_mul_pow_toNat_neg (by norm_num)]
  have hfloor : b.nearest = (2 * (b.mantissa * up) + down) / (2 * down) := rfl
  have hbelow : (b.nearest : ℚ) ≤ b.value + 1 / 2 := by
    have h := Nat.div_mul_le_self (2 * (b.mantissa * up) + down) (2 * down)
    rw [← hfloor, ← @Nat.cast_le ℚ] at h
    push_cast at h
    nlinarith
  have habove : b.value + 1 / 2 < b.nearest + 1 := by
    have h := Nat.lt_mul_div_succ (2 * (b.mantissa * up) + down) (Nat.mul_pos two_pos hpos)
    rw [← hfloor, ← @Nat.cast_lt ℚ] at h
    push_cast at h
    nlinarith
  rw [IsNearest, Int.cast_natCast]
  rcases hbelow.lt_or_eq with hlt | heq
  · exact .inl (abs_sub_lt_iff.mpr ⟨by linarith, by linarith⟩)
  · refine .inr ⟨?_, ?_⟩
    · rw [heq, sub_add_cancel_left, abs_neg, abs_of_pos (by norm_num)]
    · rw [abs_of_nonneg b.value_nonneg, abs_of_nonneg (Nat.cast_nonneg _), heq]
      linarith

end Binary

/-! ## Floats -/

/-- A float has a sign. -/
def isNegative (x : Float) : Bool := x.toBits.toNat / 2 ^ 63 = 1

theorem isNegative_iff {x : Float} : isNegative x = true ↔ x.toBits.toNat / twoTo 63 = 1 :=
  decide_eq_true_iff

/-- What a finite float stands for. -/
def exact (x : Float) : ℚ :=
  if isNegative x then -(Binary.ofBits (magnitude x)).value else (Binary.ofBits (magnitude x)).value

theorem nearestInt_eq (x : Float) :
    nearestInt x = if 0x7ff0000000000000 < magnitude x then 0
      else clamped (if isNegative x then -((Binary.ofBits (magnitude x)).nearest : ℤ)
        else (Binary.ofBits (magnitude x)).nearest) := by
  simp only [isNegative_iff]
  rfl

theorem clamped_eq (n : ℤ) : clamped n = max (-2 ^ 63) (min n (2 ^ 63 - 1)) := by
  rw [clamped]
  split
  · omega
  · split <;> omega

theorem exists_isNearest {x : Float} (h : magnitude x < 0x7ff0000000000000) :
    ∃ n, IsNearest (exact x) n ∧ nearestInt x = max (-2 ^ 63) (min n (2 ^ 63 - 1)) := by
  have hnearest := (Binary.ofBits (magnitude x)).isNearest_nearest
  rw [nearestInt_eq, if_neg h.not_gt, exact, clamped_eq]
  cases isNegative x with
  | true => exact ⟨_, hnearest.neg, rfl⟩
  | false => exact ⟨_, hnearest, rfl⟩

/-! ## Counts -/

open FloatCounts in
/-- The bits of a count, as a number without a sign. -/
theorem ofBits_ofCount {n : ℕ} (hpos : 0 < n) (h : n < 2 ^ 53) :
    isNegative (Amount.ofCount n) = false ∧
    magnitude (Amount.ofCount n) < 0x7ff0000000000000 ∧
    (Binary.ofBits (magnitude (Amount.ofCount n))).mantissa = n * 2 ^ (52 - n.log2) ∧
    (Binary.ofBits (magnitude (Amount.ofCount n))).exponent = n.log2 - 52 := by
  have hlog : n.log2 < 53 := (Nat.log2_lt hpos.ne').mpr h
  have hfull := isFull_shifted hpos h
  obtain ⟨biased, hbiased, hbits⟩ :=
    toNat_toBits_double hfull (e := (n.log2 : ℤ) - 52) (by omega) (by omega)
  have hcount : (Amount.ofCount n : Float) = double hfull (n.log2 - 52) := ofNat_eq hpos h
  have hlow := hfull.1
  have hhigh := hfull.2
  have hmagnitude : magnitude (Amount.ofCount n) =
      2 ^ 52 * biased + (n * 2 ^ (52 - n.log2) - 2 ^ 52) := by
    rw [magnitude, hcount, hbits]
    omega
  refine ⟨?_, ?_, ?_⟩
  · rw [isNegative, hcount, hbits]
    exact decide_eq_false (by omega)
  · rw [hmagnitude]
    omega
  · rw [hmagnitude, Binary.ofBits_mul_add (by omega) (by omega) (by omega)]
    dsimp only
    omega

/-- What holds of zero, of all further counts of at most 53 bits and of the
first one behind them. -/
@[elab_as_elim]
theorem count_cases {motive : ℕ → Prop} {n : ℕ} (h : n ≤ 2 ^ 53) (zero : motive 0)
    (inside : ∀ n, 0 < n → n < 2 ^ 53 → motive n) (limit : motive (2 ^ 53)) : motive n := by
  rcases Nat.eq_zero_or_pos n with rfl | hpos
  · exact zero
  · rcases Nat.lt_or_eq_of_le h with hlt | rfl
    · exact inside n hpos hlt
    · exact limit

/-- A count stands for itself. -/
theorem exact_ofCount {n : ℕ} (h : n ≤ 2 ^ 53) : exact (Amount.ofCount n) = n := by
  refine count_cases h (by decide +kernel) ?_ (by decide +kernel)
  intro n hpos hlt
  obtain ⟨hsign, -, hmantissa, hexponent⟩ := ofBits_ofCount hpos hlt
  have hlog : n.log2 < 53 := (Nat.log2_lt hpos.ne').mpr hlt
  rw [exact, hsign, if_neg Bool.false_ne_true, Binary.value_eq, hmantissa, hexponent,
    Nat.cast_mul, Nat.cast_pow, Nat.cast_ofNat, mul_assoc, ← zpow_natCast,
    ← zpow_add₀ (by norm_num)]
  have hzero : ((52 - n.log2 : ℕ) : ℤ) + (n.log2 - 52) = 0 := by omega
  rw [hzero, zpow_zero, mul_one]

/-- A count is finite. -/
theorem magnitude_ofCount_lt {n : ℕ} (h : n ≤ 2 ^ 53) :
    magnitude (Amount.ofCount n) < 0x7ff0000000000000 :=
  count_cases h (by decide +kernel) (fun _ hpos hlt => (ofBits_ofCount hpos hlt).2.1)
    (by decide +kernel)

/-- A count has no sign. -/
theorem isNegative_ofCount {n : ℕ} (h : n ≤ 2 ^ 53) : isNegative (Amount.ofCount n) = false :=
  count_cases h (by decide +kernel) (fun _ hpos hlt => (ofBits_ofCount hpos hlt).1)
    (by decide +kernel)

/-- A count is rounded to itself. -/
theorem nearestInt_ofCount {n : ℕ} (h : n ≤ 2 ^ 53) : nearestInt (Amount.ofCount n) = n := by
  obtain ⟨k, hk, hrounded⟩ := exists_isNearest (magnitude_ofCount_lt h)
  rw [exact_ofCount h, ← Int.cast_natCast] at hk
  rw [hrounded, hk.eq_of_intCast]
  omega

/-! ## What is shown of a float -/

/-- An integer shows a float: it is the nearest one within the range of 64 bits,
and the count itself where the float is one. -/
structure Shows (x : Float) (c : ℤ) : Prop where
  nearest : x.isFinite = true →
    ∃ n, IsNearest (exact x) n ∧ c = max (-2 ^ 63) (min n (2 ^ 63 - 1))
  count : ∀ n ≤ 2 ^ 53, x = Amount.ofCount n → c = n

theorem shows_nearestInt (x : Float) : Shows x (nearestInt x) where
  nearest h := exists_isNearest (magnitude_lt h)
  count n hn hx := by rw [hx, nearestInt_ofCount hn]

end SourceMetrics.Decimal

namespace SourceMetrics.Measures

/-- The count of a metric shows its value. -/
theorem shows_count (ms : Measures Float) (m : Metric) :
    Decimal.Shows (ms.get m) (ms.count m) := Decimal.shows_nearestInt (ms.get m)

end SourceMetrics.Measures
