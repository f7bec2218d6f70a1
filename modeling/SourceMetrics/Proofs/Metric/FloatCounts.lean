/-
# Counting in floating point

A run counts in floating point of 64 bits, where most sums are rounded.  To
add one to a count is exact all the same, as far as the mantissa goes: up to
2 ^ 53, each count is the one before plus one (`ofCount_add_one`).  There
counting ends (`ofCount_limit_add_one`).

The mantissa of a number has 53 bits, the first of them set, so a count of
`l + 1` bits is kept as

    n  =  (n · 2 ^ (52 - l)) · 2 ^ (l - 52)

To add one, the mantissas of both are brought to the exponent of the smaller
one, which is that of one; the sum is shifted back to 53 bits, and only zeros
are shifted out of it (`roundWithAccuracy_exact`).
-/
import Mathlib
import SourceMetrics.Metric.Amount

namespace SourceMetrics.FloatCounts

open Float.Model Float.Model.UnpackedFloat
open Float.Model.Format (binary64)

/-! ## Mantissas of 53 bits -/

/-- The number has 53 bits. -/
def IsFull (mantissa : Nat) : Prop := 2 ^ 52 ≤ mantissa ∧ mantissa < 2 ^ 53

theorem log2_mul_two_pow {n : Nat} (h : 0 < n) (k : Nat) : (n * 2 ^ k).log2 = n.log2 + k := by
  induction k with
  | zero => rw [Nat.pow_zero, Nat.mul_one, Nat.add_zero]
  | succ k ih =>
      rw [Nat.pow_succ', Nat.mul_left_comm,
        Nat.log2_two_mul (Nat.mul_pos h (Nat.two_pow_pos k)).ne', ih, Nat.add_assoc]

section
variable {q : Nat}

theorem IsFull.pos (h : IsFull q) : 0 < q := Nat.lt_of_lt_of_le (by decide) h.1

theorem IsFull.log2 (h : IsFull q) : q.log2 = 52 := (Nat.log2_eq_iff h.pos.ne').mpr h

/-- A number of at most 53 bits, shifted to 53. -/
theorem isFull_shifted {n : Nat} (hpos : 0 < n) (h : n < 2 ^ 53) :
    IsFull (n * 2 ^ (52 - n.log2)) := by
  have hlog : n.log2 < 53 := (Nat.log2_lt hpos.ne').mpr h
  have hpow : ∀ bits, 2 ^ (n.log2 + bits) * 2 ^ (52 - n.log2) = 2 ^ (52 + bits) := by
    intro bits
    rw [← Nat.pow_add]
    congr 1
    omega
  constructor
  · rw [← hpow 0]
    exact Nat.mul_le_mul_right _ (Nat.log2_self_le hpos.ne')
  · rw [← hpow 1]
    exact Nat.mul_lt_mul_of_pos_right Nat.lt_log2_self (Nat.two_pow_pos _)

/-! ## Rounding that loses nothing -/

theorem shiftRight_mul (q k : Nat) :
    (⟨q * 2 ^ k, false, false⟩ : ExtendedMantissa) >>> k = ⟨q, false, false⟩ := by
  suffices hmore : ∀ q, Nat.repeat ExtendedMantissa.shiftRightOne k ⟨q * 2 ^ k, false, false⟩ =
      ⟨q, false, false⟩ from hmore q
  induction k with
  | zero => exact fun q => by rw [Nat.pow_zero, Nat.mul_one]; rfl
  | succ k ih =>
      intro q
      have hstep := ih (q * 2)
      rw [Nat.mul_assoc, ← Nat.pow_succ'] at hstep
      rw [Nat.repeat, hstep, ExtendedMantissa.shiftRightOne]
      simp

/-- The exponent that a number of 53 bits and some zeros is brought to. -/
theorem IsFull.targetExponent (h : IsFull q) {e : Int} {k : Nat} (hmin : -1074 ≤ e + k) :
    binary64.targetExponent (totalExponent (q * 2 ^ k) e) = e + k := by
  rw [Format.targetExponent, totalExponent, log2_mul_two_pow h.pos, h.log2]
  simp only [Format.mantissaBits, Format.minExponent]
  omega

theorem shiftToTargetExponent_exact (h : IsFull q) {e : Int} {k : Nat} (hmin : -1074 ≤ e + k) :
    shiftToTargetExponent binary64 (q * 2 ^ k) e .exact = (⟨q, false, false⟩, e + k) := by
  have hshift : (e + k - e).toNat = k := by omega
  rw [shiftToTargetExponent, h.targetExponent hmin, shiftToExponent]
  simp only [hshift, ExtendedMantissa.ofMantissaAndAccuracy, shiftRight_mul]

/-- Zeros that are shifted out are no loss. -/
theorem roundWithAccuracy_exact (h : IsFull q) {e : Int} {k : Nat} (hmin : -1074 ≤ e + k) :
    roundWithAccuracy binary64 .positive (q * 2 ^ k) e .exact =
      .finite .positive q (e + k) h.pos := by
  have hagain := shiftToTargetExponent_exact h (e := e + k) (k := 0) (by omega)
  rw [Nat.pow_zero, Nat.mul_one, Int.natCast_zero, Int.add_zero] at hagain
  rw [roundWithAccuracy, shiftToTargetExponent_exact h hmin]
  simp only [ExtendedMantissa.roundedMantissa, ExtendedMantissa.accuracy,
    Accuracy.roundToNearestEven, hagain, h.pos.ne', dif_neg, not_false_eq_true]

/-- Zeros that are missing are put in. -/
theorem round_widened (h : IsFull q) {m j : Nat} {e : Int} (hm : m * 2 ^ j = q)
    (hmin : -1074 ≤ e - j) :
    round binary64 .positive m e = .finite .positive q (e - j) h.pos := by
  have hpos : 0 < m := by
    rcases Nat.eq_zero_or_pos m with rfl | hpos
    · rw [Nat.zero_mul] at hm
      exact absurd hm h.pos.ne
    · exact hpos
  have hlog : m.log2 + j = 52 := by
    have hfull := h.log2
    rwa [← hm, log2_mul_two_pow hpos] at hfull
  have htarget : binary64.targetExponent (totalExponent m e) = e - j := by
    rw [Format.targetExponent, totalExponent]
    simp only [Format.mantissaBits, Format.minExponent]
    omega
  have hshift : (e - (e - j)).toNat = j := by omega
  have hexact := roundWithAccuracy_exact h (e := e - j) (k := 0) (by omega)
  rw [Nat.pow_zero, Nat.mul_one, Int.natCast_zero, Int.add_zero] at hexact
  rw [UnpackedFloat.round, htarget, decreaseExponent]
  simp only [hshift, Nat.shiftLeft_eq, hm, hexact]

/-- Zeros that are too many are shifted out. -/
theorem round_narrowed (h : IsFull q) {k : Nat} {e : Int} (hmin : -1074 ≤ e + k) :
    round binary64 .positive (q * 2 ^ k) e = .finite .positive q (e + k) h.pos := by
  have hshift : (e - (e + k)).toNat = 0 := by omega
  rw [UnpackedFloat.round, h.targetExponent hmin, decreaseExponent]
  simp only [hshift, Nat.shiftLeft_zero, Int.natCast_zero, Int.sub_zero,
    roundWithAccuracy_exact h hmin]

/-! ## Packed and unpacked -/

/-- The first bit of the mantissa is left out, and put back in. -/
theorem IsFull.toNat_append (h : IsFull q) : (1#1 ++ BitVec.ofNat 52 q).toNat = q := by
  obtain ⟨hlow, hhigh⟩ := h
  rw [BitVec.toNat_append, ← Nat.shiftLeft_add_eq_or_of_lt (BitVec.isLt _), BitVec.toNat_ofNat,
    Nat.shiftLeft_eq]
  simp
  omega

/-- The number `q · 2 ^ e` in floating point. -/
def double (h : IsFull q) (e : Int) : Float := .ofModel (.pack (.finite .positive q e h.pos))

/-- An exponent in the range of the format is kept with a bias, which leaves it
neither the smallest of all nor the largest. -/
theorem exists_pack_eq (h : IsFull q) {e : Int} (hmin : -1074 ≤ e) (hmax : e ≤ 971) :
    ∃ biased : Nat, e + 1075 = biased ∧ UnpackedFloat.pack binary64 (.finite .positive q e h.pos) =
      packComponents binary64 .positive (BitVec.ofNat _ biased) (BitVec.ofNat _ q) := by
  obtain ⟨biased, hbiased⟩ : ∃ biased : Nat, e + 1075 = biased :=
    Int.eq_ofNat_of_zero_le (by omega)
  have htoNat :
      (e + binary64.exponentBias + binary64.mantissaBitsWithoutImplicit).toNat = biased := by
    simp only [Format.exponentBias]
    omega
  have hrange : ¬ 2 ^ 11 ≤ biased + 1 := by omega
  have hnormal : 52 + 1 = binary64.mantissaBits := rfl
  refine ⟨biased, hbiased, ?_⟩
  rw [UnpackedFloat.pack]
  simp only [htoNat, hrange, if_false, h.log2, hnormal, if_true]

/-- A number of 53 bits is kept as it is, with an exponent in the range of the
format. -/
theorem unpack_double (h : IsFull q) {e : Int} (hmin : -1074 ≤ e) (hmax : e ≤ 971) :
    (double h e).toModel.unpack = .finite .positive q e h.pos := by
  obtain ⟨biased, hbiased, hpacked⟩ := exists_pack_eq h hmin hmax
  have hne : ∀ c : BitVec 11, c.toNat ≠ biased → BitVec.ofNat 11 biased ≠ c := by
    intro c hc heq
    rw [← heq, BitVec.toNat_ofNat] at hc
    omega
  have hlarge : BitVec.ofNat 11 biased ≠ -1#_ := hne _ (by show 2047 ≠ biased; omega)
  have hsmall : BitVec.ofNat 11 biased ≠ 0#_ := hne _ (by show 0 ≠ biased; omega)
  have hexponent : ((BitVec.ofNat 11 biased).toNat : Int) -
      (binary64.exponentBias + (52 : Nat)) = e := by
    rw [BitVec.toNat_ofNat]
    simp only [Format.exponentBias]
    omega
  have hbits : (double h e).toModel.toBits.toBitVec =
      UnpackedFloat.pack binary64 (.finite .positive q e h.pos) := rfl
  rw [Float.Model.unpack, hbits, hpacked, UnpackedFloat.unpack]
  simp only [unpackMantissa_packComponents, unpackExponent_packComponents,
    unpackSign_packComponents, hlarge, hsmall, if_false, h.toNat_append, hexponent]
  rfl

/-- The bits are those of the mantissa without its first, behind the exponent
with its bias. -/
theorem toNat_toBits_double (h : IsFull q) {e : Int} (hmin : -1074 ≤ e) (hmax : e ≤ 971) :
    ∃ biased : Nat, e + 1075 = biased ∧
      (double h e).toBits.toNat = 2 ^ 52 * biased + (q - 2 ^ 52) := by
  obtain ⟨biased, hbiased, hpacked⟩ := exists_pack_eq h hmin hmax
  have hlow := h.1
  have hhigh := h.2
  have hbits : (double h e).toBits.toNat =
      (UnpackedFloat.pack binary64 (.finite .positive q e h.pos)).toNat := rfl
  have hcomponents : (packComponents binary64 .positive (BitVec.ofNat _ biased)
      (BitVec.ofNat _ q)).toNat = ((0#1 ++ BitVec.ofNat 11 biased) ++ BitVec.ofNat 52 q).toNat := rfl
  refine ⟨biased, hbiased, ?_⟩
  rw [hbits, hpacked, hcomponents]
  simp only [BitVec.toNat_append, BitVec.toNat_ofNat, Nat.zero_mod, Nat.zero_shiftLeft,
    Nat.zero_or]
  rw [← Nat.shiftLeft_add_eq_or_of_lt (Nat.mod_lt _ (by decide)), Nat.shiftLeft_eq]
  omega

/-! ## Counts -/

theorem isFull_one : IsFull (2 ^ 52) := ⟨Nat.le_refl _, by decide⟩

/-- What is above zero is rounded as it is. -/
theorem normalize_of_pos {n : Nat} (h : 0 < n) (e : Int) :
    normalize binary64 n e .positive = round binary64 .positive n e := by
  have hcompare : compare (n : Int) 0 = .gt := compare_gt_iff_gt.mpr (Int.natCast_pos.mpr h)
  rw [UnpackedFloat.normalize, hcompare]
  rfl

/-- Numbers of the format multiply with one to themselves. -/
theorem double_mul_one (h : IsFull q) {e : Int} (hmin : -1074 ≤ e) (hmax : e ≤ 971) :
    double h e * double isFull_one (-52) = double h e := by
  have hround := roundWithAccuracy_exact h (e := e + -52) (k := 52) (by omega)
  have hexponent : e + -52 + (52 : Nat) = e := by omega
  rw [hexponent] at hround
  show Float.ofModel (.pack (UnpackedFloat.mul binary64 _ _)) = _
  rw [unpack_double h hmin hmax, unpack_double isFull_one (by decide) (by decide)]
  exact congrArg (fun f => Float.ofModel (.pack f)) hround

/-- How a count of at most 53 bits is kept. -/
theorem ofNat_eq {n : Nat} (hpos : 0 < n) (h : n < 2 ^ 53) :
    Float.ofNat n = double (isFull_shifted hpos h) (n.log2 - 52) := by
  have hfull := isFull_shifted hpos h
  have hlog : n.log2 < 53 := (Nat.log2_lt hpos.ne').mpr h
  have hexponent : (0 : Int) - (52 - n.log2 : Nat) = n.log2 - 52 := by omega
  have hword : n.toUInt64.toNat = n := Nat.mod_eq_of_lt (by omega)
  have hround : UnpackedFloat.ofUInt64 binary64 n.toUInt64 =
      .finite .positive (n * 2 ^ (52 - n.log2)) (n.log2 - 52) hfull.pos := by
    rw [UnpackedFloat.ofUInt64, UnpackedFloat.ofNat, UnpackedFloat.ofInt, hword,
      normalize_of_pos hpos, round_widened hfull rfl (by omega)]
    simp only [hexponent]
  have hfloat : n.toUInt64.toFloat = double hfull (n.log2 - 52) :=
    congrArg (fun f => Float.ofModel (.pack f)) hround
  show Float.ofScientific n false 0 = _
  rw [Float.ofScientific, dif_pos ⟨h, by decide⟩]
  show n.toUInt64.toFloat * double isFull_one (-52) = _
  rw [hfloat, double_mul_one hfull (by omega) (by omega)]

/-- One more than a count of at most 53 bits, where the sum is brought to 53
bits. -/
theorem ofNat_add_double {n l : Nat} (hpos : 0 < n) (h : n < 2 ^ 53) (hq : IsFull q)
    (hsum : (n + 1) * 2 ^ 52 = q * 2 ^ l) :
    Float.ofNat n + double isFull_one (-52) = double hq (l - 52) := by
  have hfull := isFull_shifted hpos h
  have hlog : n.log2 < 53 := (Nat.log2_lt hpos.ne').mpr h
  have hmin : min ((n.log2 : Int) - 52) (-52) = -52 := by omega
  have hleft : ((n.log2 : Int) - 52 - -52).toNat = n.log2 := by omega
  have hright : ((-52 : Int) - -52).toNat = 0 := rfl
  have haligned : n * 2 ^ (52 - n.log2) * 2 ^ n.log2 = n * 2 ^ 52 := by
    rw [Nat.mul_assoc, ← Nat.pow_add, Nat.sub_add_cancel (by omega)]
  have hmantissa :
      ((n * 2 ^ 52 : Nat) : Int) + ((2 ^ 52 : Nat) : Int) = ((q * 2 ^ l : Nat) : Int) := by
    rw [← hsum, ← Int.natCast_add, Nat.add_mul, Nat.one_mul]
  have hround := round_narrowed hq (e := -52) (k := l) (by omega)
  have hexponent : (-52 : Int) + l = l - 52 := by omega
  rw [hexponent] at hround
  rw [ofNat_eq hpos h]
  show Float.ofModel (.pack (UnpackedFloat.add binary64 _ _)) = _
  rw [unpack_double hfull (by omega) (by omega), unpack_double isFull_one (by decide) (by decide)]
  refine congrArg (fun f => Float.ofModel (.pack f)) ?_
  simp only [UnpackedFloat.add, hmin, decreaseExponent, hleft, hright, Nat.shiftLeft_eq, haligned,
    Nat.pow_zero, Nat.mul_one, Sign.apply, hmantissa]
  rw [normalize_of_pos (Nat.mul_pos hq.pos (Nat.two_pow_pos l)), hround]

/-- Each count is the one before plus one, up to 2 ^ 53. -/
theorem ofCount_add_one {n : Nat} (h : n < 2 ^ 53) :
    Amount.ofCount n + (1 : Float) = Amount.ofCount (n + 1) := by
  show Float.ofNat n + double isFull_one (-52) = Float.ofNat (n + 1)
  rcases Nat.eq_zero_or_pos n with rfl | hpos
  · rfl
  · by_cases hlast : n + 1 < 2 ^ 53
    · have hlog : (n + 1).log2 ≤ 52 :=
        Nat.le_of_lt_succ ((Nat.log2_lt (Nat.succ_ne_zero n)).mpr hlast)
      rw [ofNat_eq (Nat.succ_pos n) hlast]
      refine ofNat_add_double hpos h (isFull_shifted (Nat.succ_pos n) hlast) ?_
      rw [Nat.mul_assoc, ← Nat.pow_add, Nat.sub_add_cancel hlog]
    · -- The last count has one bit more, with only zeros behind the first.
      have hn : n + 1 = 2 ^ 53 := by omega
      have hkept : Float.ofNat (2 ^ 53) = double isFull_one ((53 : Nat) - 52) := rfl
      rw [hn, hkept]
      refine ofNat_add_double hpos h isFull_one ?_
      rw [hn, Nat.mul_comm]

/-- One more than 2 ^ 53 is rounded back to it. -/
theorem ofCount_limit_add_one :
    Amount.ofCount (2 ^ 53) + (1 : Float) = Amount.ofCount (2 ^ 53) := by decide +kernel

theorem zero_add_double (h : IsFull q) {e : Int} (hmin : -1074 ≤ e) (hmax : e ≤ 971) :
    (0 : Float) + double h e = double h e := by
  show Float.ofModel (.pack (UnpackedFloat.add binary64 (.zero .positive) _)) = _
  rw [unpack_double h hmin hmax]
  rfl

/-- To add a count to zero does nothing to it. -/
theorem zero_add_ofCount {n : Nat} (h : n ≤ 2 ^ 53) :
    (0 : Float) + Amount.ofCount n = Amount.ofCount n := by
  rcases Nat.eq_zero_or_pos n with rfl | hpos
  · rfl
  · rcases Nat.lt_or_eq_of_le h with hlt | rfl
    · have hlog : n.log2 < 53 := (Nat.log2_lt hpos.ne').mpr hlt
      show (0 : Float) + Float.ofNat n = Float.ofNat n
      rw [ofNat_eq hpos hlt, zero_add_double _ (by omega) (by omega)]
    · exact zero_add_double isFull_one (e := 1) (by decide) (by decide)

end

end SourceMetrics.FloatCounts
