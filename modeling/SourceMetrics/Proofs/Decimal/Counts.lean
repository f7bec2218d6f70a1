/-
# A count is written as itself

A float may stand for a whole number and yet be written as another, since
the fewest digits that read back are asked for: 2 ^ 60 is written with zeros
behind its first digits.  Where the last place is worth no more than one,
this cannot be.  The grid of whole numbers has the number itself, so the
search stops there or on a grid of tens, hundreds and so on; what it finds is
a whole number, at most half of the last place away:

    |found - n|  ≤  1/2,  both whole,  so  found = n

Counts of at most 53 bits are such numbers, up to 2 ^ 53, whose last place is
worth two (`value_ofMagnitude_ofCount`).
-/
import SourceMetrics.Proofs.Decimal.Rounding

namespace SourceMetrics.Decimal

namespace Binary

variable {b : Binary}

/-! ## The search on the grids -/

/-- The decade of a number ends above it. -/
theorem lt_decade (b : Binary) : b.value < 10 ^ b.decade := by
  have hhigh := (b.floorAt_spec (-330)).2
  have hunit : (0 : ℚ) < 10 ^ (-330 : ℤ) := by positivity
  have hfloor : b.floorAt (-330) + 1 ≤ 10 ^ (Nat.toDigits 10 (b.floorAt (-330))).length :=
    (Nat.length_toDigits_le_iff (by decide) Nat.length_toDigits_pos).mp le_rfl
  calc b.value < (b.floorAt (-330) + 1) * 10 ^ (-330 : ℤ) := hhigh
    _ ≤ 10 ^ (Nat.toDigits 10 (b.floorAt (-330))).length * 10 ^ (-330 : ℤ) :=
        mul_le_mul_of_nonneg_right (mod_cast hfloor) hunit.le
    _ = 10 ^ b.decade := by rw [← zpow_natCast, ← zpow_add₀ (by norm_num), decade]; rfl

theorem exponent_of_onGrid {e : ℤ} {d : Digits} (h : b.onGrid e = some d) : d.exponent = e := by
  simp only [onGrid] at h
  split at h
  next => exact (Option.some.inj h) ▸ rfl
  next => exact (Option.some.inj h) ▸ rfl
  next => exact (Option.some.inj h) ▸ rfl
  next => cases h

/-- The search finds something at the latest on the first grid that has a
decimal. -/
theorem exists_onGrid_eq_shortest {k : ℕ} (hk : k < 18) (h : b.onGrid (b.decade - k) ≠ none) :
    ∃ j ≤ k, b.onGrid (b.decade - j) = some b.shortest := by
  have hmem : k ∈ List.range 18 := List.mem_range.mpr hk
  cases hfound : (List.range 18).findSome? fun (j : ℕ) => b.onGrid (b.decade - (j : ℤ)) with
  | none => exact absurd (List.findSome?_eq_none_iff.mp hfound k hmem) h
  | some d =>
      have hshortest : b.shortest = d := by simp only [shortest, hfound, Option.getD_some]
      obtain ⟨before, j, behind, hsplit, hj, hbefore⟩ := List.findSome?_eq_some_iff.mp hfound
      refine ⟨j, ?_, hshortest ▸ hj⟩
      have hsorted := List.pairwise_lt_range (n := 18)
      rw [hsplit] at hmem hsorted
      rcases List.mem_append.mp hmem with hin | hin
      · exact absurd (hbefore k hin) h
      · rcases List.mem_cons.mp hin with rfl | hbehind
        · exact le_rfl
        · exact (List.rel_of_pairwise_cons (List.pairwise_append.mp hsorted).2.1 hbehind).le

/-- What reads back as a number is at most half of the last place away. -/
theorem IsFloat.abs_sub_le_of_reads (hb : b.IsFloat) {x : ℚ} (h : b.Reads x) :
    |x - b.value| ≤ 2 * b.quarter := by
  have hq := b.quarter_pos
  obtain ⟨hlow, hhigh⟩ := h
  rw [hb.low_mul] at hlow
  rw [b.high_mul] at hhigh
  have hbelow : b.value - 2 * b.quarter ≤ x := by
    rcases hlow with hlow | ⟨-, hlow⟩ <;> split at hlow <;> linarith
  have habove : x ≤ b.value + 2 * b.quarter := by
    rcases hhigh with hhigh | ⟨-, hhigh⟩ <;> linarith
  exact abs_sub_le_iff.mpr ⟨by linarith, by linarith⟩

/-! ## Whole numbers -/

section
variable (hb : b.IsFloat) (hexponent : b.exponent ≤ 0) {n : ℕ} (hvalue : b.value = n)
include hb hexponent hvalue

/-- The grid of whole numbers is among those that are searched. -/
theorem IsFloat.decade_bounds (hpos : 0 < n) : 0 < b.decade ∧ b.decade < 18 := by
  have hone : (1 : ℚ) ≤ b.value := hvalue ▸ Nat.one_le_cast.mpr hpos
  have hsmall : b.value < 10 ^ (17 : ℤ) := by
    have hmantissa : (b.mantissa : ℚ) < 2 ^ 53 := mod_cast hb.lt
    calc b.value = b.mantissa * 2 ^ b.exponent := b.value_eq
      _ ≤ b.mantissa * 1 :=
          mul_le_mul_of_nonneg_left (zpow_le_one_of_nonpos₀ (by norm_num) hexponent)
            (Nat.cast_nonneg _)
      _ < 10 ^ (17 : ℤ) := by
          rw [mul_one]
          exact hmantissa.trans (by norm_num)
  have hlow := (zpow_lt_zpow_iff_right₀ (by norm_num : (1 : ℚ) < 10)).mp
    (hb.decade_le.trans_lt hsmall)
  have hhigh : (10 : ℚ) ^ (0 : ℤ) < 10 ^ b.decade := by
    rw [zpow_zero]
    exact hone.trans_lt b.lt_decade
  have hpositive := (zpow_lt_zpow_iff_right₀ (by norm_num : (1 : ℚ) < 10)).mp hhigh
  omega

/-- A whole number whose last place is worth no more than one is written as
itself. -/
theorem IsFloat.value_shortest (hpos : 0 < n) : b.shortest.value = n := by
  obtain ⟨hdecade, hlast⟩ := hb.decade_bounds hexponent hvalue hpos
  obtain ⟨top, htop⟩ := Int.eq_ofNat_of_zero_le hdecade.le
  -- The number itself lies on the grid of whole numbers.
  have hgrid : b.onGrid (b.decade - top) ≠ none := by
    obtain ⟨hlow, hhigh⟩ := b.floorAt_spec 0
    rw [zpow_zero, mul_one, hvalue, Nat.cast_le] at hlow
    rw [zpow_zero, mul_one, hvalue, ← Nat.cast_succ, Nat.cast_lt] at hhigh
    have hfloor : b.floorAt 0 = n := by omega
    have hq := b.quarter_pos
    rw [htop, Int.sub_self]
    refine Binary.onGrid_ne_none (.inl ⟨by omega, ?_⟩)
    rw [hfloor, zpow_zero, mul_one, ← hvalue]
    exact hb.reads_of_above le_rfl (by linarith)
  obtain ⟨j, hj, hfound⟩ := exists_onGrid_eq_shortest (by omega) hgrid
  have hreads := hb.abs_sub_le_of_reads (reads_of_onGrid hfound)
  -- What is found is a whole number too.
  obtain ⟨places, hplaces⟩ := Int.eq_ofNat_of_zero_le
    (show 0 ≤ b.shortest.exponent by rw [exponent_of_onGrid hfound]; omega)
  have hwhole : b.shortest.value = ((b.shortest.digits * 10 ^ places : ℕ) : ℤ) := by
    rw [Digits.value, hplaces]
    push_cast
    rw [zpow_natCast]
  have hquarter : 2 * b.quarter ≤ 1 / 2 := by
    have hle : b.quarter ≤ 2 ^ (-2 : ℤ) :=
      zpow_le_zpow_right₀ (by norm_num) (by omega)
    calc 2 * b.quarter ≤ 2 * 2 ^ (-2 : ℤ) := mul_le_mul_of_nonneg_left hle (by norm_num)
      _ = 1 / 2 := by norm_num
  have hnear : |((b.shortest.digits * 10 ^ places : ℕ) : ℤ) - (n : ℤ)| < 1 := by
    rw [← @Int.cast_lt ℚ, Int.cast_abs, Int.cast_sub, ← hwhole, Int.cast_natCast, ← hvalue,
      Int.cast_one]
    linarith
  rw [hwhole, sub_eq_zero.mp (Int.abs_lt_one_iff.mp hnear), Int.cast_natCast]

end
end Binary

/-! ## Counts -/

/-- The decimal that is written for a count stands for the count. -/
theorem value_ofMagnitude_ofCount {n : ℕ} (h : n ≤ 2 ^ 53) :
    (ofMagnitude (magnitude (Amount.ofCount n))).value = n := by
  refine count_cases h (by decide +kernel) ?_ (by decide +kernel)
  intro n hpos hlt
  obtain ⟨hsign, hfinite, hmantissa, hexponent⟩ := ofBits_ofCount hpos hlt
  have hexact := exact_ofCount hlt.le
  rw [exact, hsign, if_neg Bool.false_ne_true] at hexact
  have hne : magnitude (Amount.ofCount n) ≠ 0 := by
    intro hzero
    rw [hzero] at hmantissa
    exact absurd hmantissa (Nat.mul_pos hpos (Nat.two_pow_pos _)).ne
  have hlog : n.log2 < 53 := (Nat.log2_lt hpos.ne').mpr hlt
  rw [ofMagnitude, if_neg hne]
  exact (Binary.isFloat_ofBits (by omega) (by omega)).value_shortest (by omega) hexact hpos

end SourceMetrics.Decimal
