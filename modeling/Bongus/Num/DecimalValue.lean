import Bongus.Lib.Numerals
import Bongus.Num.DecimalArithmetic
import Mathlib.Algebra.Order.Field.Power

/-!
# The numbers that decimals denote

A decimal denotes a rational number (`value`). The order of `exact_decimal.rs` compares the digits
of two decimals and no numbers; `cmp_eq_compare` shows that it is the order of the numbers. The
checked operations give the numbers that they should wherever they give a decimal at all, and
rounding down to an increment never exceeds what is rounded (`floorToIncrement_eq_some`).

A decimal that the operations give is `Canonical`: it has no zero at the end of its fraction, and
its units and its scale are within the bounds of a decimal that is read from a text.
-/

set_option autoImplicit false
set_option relaxedAutoImplicit false

namespace Bongus.Num.ExactDecimal

open Lib.Numerals

def value (d : ExactDecimal) : ℚ := d.units / 10 ^ d.scale

theorem value_zero : zero.value = 0 := by norm_num [value, zero]

theorem value_pos_iff (d : ExactDecimal) : 0 < d.value ↔ 0 < d.units := by
  have hpow : (0 : ℚ) < 10 ^ d.scale := by positivity
  rw [value, div_pos_iff_of_pos_right hpow, Int.cast_pos]

theorem value_nonneg_iff (d : ExactDecimal) : 0 ≤ d.value ↔ 0 ≤ d.units := by
  have hpow : (0 : ℚ) < 10 ^ d.scale := by positivity
  rw [value, le_div_iff₀ hpow, zero_mul, Int.cast_nonneg_iff]

/-! ### Normalization -/

theorem value_normalized (units : ℤ) (scale : ℕ) :
    (normalized units scale).value = units / 10 ^ scale := by
  induction scale generalizing units with
  | zero => rfl
  | succ scale ih =>
    rw [normalized]
    split
    · rename_i hdivides
      have hunits : (units : ℚ) = (units / 10 : ℤ) * 10 := by
        exact_mod_cast (Int.ediv_mul_cancel (Int.dvd_of_emod_eq_zero hdivides)).symm
      rw [ih, hunits, pow_succ]
      field_simp
    · rfl

/-- What a decimal is that can be read from a text. -/
structure Canonical (d : ExactDecimal) : Prop where
  normal : d.scale = 0 ∨ d.units % 10 ≠ 0
  fits : d.units.natAbs < 2 ^ 127
  scale_le : d.scale ≤ maxParsedScale

theorem canonical_zero : Canonical zero := ⟨Or.inl rfl, by decide, by decide⟩

theorem canonical_normalized {units : ℤ} {scale : ℕ} (hunits : units.natAbs < 2 ^ 127)
    (hscale : scale ≤ maxParsedScale) : Canonical (normalized units scale) := by
  induction scale generalizing units with
  | zero => exact ⟨Or.inl rfl, hunits, hscale⟩
  | succ scale ih =>
    rw [normalized]
    split
    · have hsmaller : (units / 10).natAbs < 2 ^ 127 := by omega
      exact ih hsmaller (Nat.le_of_succ_le hscale)
    · rename_i hrest
      exact ⟨Or.inr hrest, hunits, hscale⟩

theorem Canonical.normalized_eq {d : ExactDecimal} (hd : Canonical d) :
    normalized d.units d.scale = d := by
  obtain ⟨units, scale⟩ := d
  cases scale with
  | zero => rfl
  | succ scale => exact if_neg (hd.normal.resolve_left (Nat.succ_ne_zero scale))

/-! ### Order -/

theorem compareDigits_step (left right : List Char) :
    compareDigits left right =
      (compare (left.headD '0') (right.headD '0')).then
        (compareDigits left.tail right.tail) := by
  cases left with
  | nil => cases right <;> rfl
  | cons a as => rfl

theorem absoluteSignificand_eq (d : ExactDecimal) :
    d.absoluteSignificand = Nat.toDigits 10 d.units.natAbs := Nat.toList_repr

theorem digits_absoluteSignificand (d : ExactDecimal) : Digits d.absoluteSignificand := by
  intro c hc
  rw [absoluteSignificand_eq] at hc
  exact Nat.isDigit_of_mem_toDigits (by norm_num) (by norm_num) hc

/-- The digits after a point, as a number below one. -/
def mantissa (d : ExactDecimal) : ℚ := d.units.natAbs / 10 ^ d.absoluteSignificand.length

theorem placed_absoluteSignificand {d : ExactDecimal} {width : ℕ}
    (hwidth : d.absoluteSignificand.length ≤ width) :
    (placed width d.absoluteSignificand : ℚ) = d.mantissa * 10 ^ width := by
  have hpow : (10 : ℚ) ^ width =
      10 ^ d.absoluteSignificand.length * 10 ^ (width - d.absoluteSignificand.length) := by
    rw [← pow_add, Nat.add_sub_cancel' hwidth]
  have hdigits : Nat.ofDigitChars 10 d.absoluteSignificand 0 = d.units.natAbs := by
    rw [absoluteSignificand_eq, Nat.ofDigitChars_ten_toDigits]
  rw [placed, hdigits, mantissa, hpow]
  push_cast
  field_simp

theorem mantissa_lt_one (d : ExactDecimal) : d.mantissa < 1 := by
  have hpow : (0 : ℚ) < 10 ^ d.absoluteSignificand.length := by positivity
  have hlength : d.units.natAbs < 10 ^ d.absoluteSignificand.length := by
    rw [absoluteSignificand_eq]
    exact (Nat.length_toDigits_le_iff (by norm_num) Nat.length_toDigits_pos).mp le_rfl
  rw [mantissa, div_lt_one hpow]
  exact_mod_cast hlength

theorem le_mantissa {d : ExactDecimal} (hne : d.units ≠ 0) : 1 / 10 ≤ d.mantissa := by
  have hpos : 0 < d.absoluteSignificand.length := by
    rw [absoluteSignificand_eq]
    exact Nat.length_toDigits_pos
  obtain ⟨places, hplaces⟩ := Nat.exists_eq_succ_of_ne_zero hpos.ne'
  have hunits : 10 ^ places ≤ d.units.natAbs := by
    rcases Nat.eq_zero_or_pos places with rfl | hsome
    · exact Int.natAbs_pos.mpr hne
    · by_contra hless
      have hshort := (Nat.length_toDigits_le_iff (b := 10) (by norm_num) hsome).mpr
        (not_le.mp hless)
      rw [← absoluteSignificand_eq, hplaces] at hshort
      exact Nat.not_succ_le_self places hshort
  have hcast : (10 : ℚ) ^ places ≤ d.units.natAbs := by exact_mod_cast hunits
  rw [mantissa, hplaces, div_le_div_iff₀ (by norm_num) (by positivity), pow_succ]
  linarith

theorem abs_value (d : ExactDecimal) : |d.value| = d.mantissa * 10 ^ d.magnitudeExponent := by
  have hten : (10 : ℚ) ≠ 0 := by norm_num
  rw [value, mantissa, magnitudeExponent, abs_div, abs_of_pos (by positivity : (0 : ℚ) <
    10 ^ d.scale), zpow_sub₀ hten, zpow_natCast, zpow_natCast, ← Int.cast_abs, Nat.cast_natAbs]
  field_simp

/-- The digits, with the place of the first one, compare as the absolute numbers. -/
theorem compare_magnitude {left right : ExactDecimal} (hleft : left.units ≠ 0)
    (hright : right.units ≠ 0) :
    (compare left.magnitudeExponent right.magnitudeExponent).then
        (compareDigits left.absoluteSignificand right.absoluteSignificand) =
      compare |left.value| |right.value| := by
  have hlarger : ∀ {small large : ExactDecimal}, large.units ≠ 0 →
      small.magnitudeExponent < large.magnitudeExponent → |small.value| < |large.value| := by
    intro small large hne hless
    have hten : (1 : ℚ) ≤ 10 := by norm_num
    have hpos : (0 : ℚ) < 10 ^ small.magnitudeExponent := by positivity
    have hpow : (10 : ℚ) ^ (small.magnitudeExponent + 1) ≤ 10 ^ large.magnitudeExponent :=
      zpow_le_zpow_right₀ hten hless
    rw [zpow_add_one₀ (by norm_num)] at hpow
    have hsmall := small.mantissa_lt_one
    have hlarge := le_mantissa hne
    rw [abs_value, abs_value]
    nlinarith
  rcases lt_trichotomy left.magnitudeExponent right.magnitudeExponent with hless | heq | hmore
  · rw [compare_lt_iff_lt.mpr hless, Ordering.lt_then]
    exact (compare_lt_iff_lt.mpr (hlarger hright hless)).symm
  · set width := Nat.max left.absoluteSignificand.length right.absoluteSignificand.length
    have hpos : (0 : ℚ) < 10 ^ right.magnitudeExponent := by positivity
    have hwidth : (0 : ℚ) < 10 ^ width := by positivity
    rw [compare_eq_iff_eq.mpr heq, Ordering.eq_then,
      compare_placed rfl compareDigits_step left.digits_absoluteSignificand
        right.digits_absoluteSignificand (Nat.le_max_left _ _) (Nat.le_max_right _ _),
      abs_value, abs_value, heq]
    refine compare_congr ?_ ?_
    · rw [← Nat.cast_lt (α := ℚ), placed_absoluteSignificand (Nat.le_max_left _ _),
        placed_absoluteSignificand (Nat.le_max_right _ _), mul_lt_mul_iff_left₀ hwidth,
        mul_lt_mul_iff_left₀ hpos]
    · rw [← Nat.cast_lt (α := ℚ), placed_absoluteSignificand (Nat.le_max_left _ _),
        placed_absoluteSignificand (Nat.le_max_right _ _), mul_lt_mul_iff_left₀ hwidth,
        mul_lt_mul_iff_left₀ hpos]
  · rw [compare_gt_iff_gt.mpr hmore, Ordering.gt_then]
    exact (compare_gt_iff_gt.mpr (hlarger hleft hmore)).symm

theorem value_neg_iff (d : ExactDecimal) : d.value < 0 ↔ d.units < 0 := by
  rw [← not_le, value_nonneg_iff, not_le]

theorem value_lt_of_sign_lt {left right : ExactDecimal}
    (hsign : left.units.sign < right.units.sign) : left.value < right.value := by
  rcases lt_trichotomy left.units 0 with hleft | hleft | hleft
  · have hright : 0 ≤ right.units := by
      by_contra hneg
      rw [Int.sign_eq_neg_one_of_neg hleft, Int.sign_eq_neg_one_of_neg (not_le.mp hneg)] at hsign
      exact absurd hsign (by decide)
    exact (left.value_neg_iff.mpr hleft).trans_le (right.value_nonneg_iff.mpr hright)
  · rw [hleft, Int.sign_zero] at hsign
    have hright : 0 < right.units := Int.sign_pos_iff.mp hsign
    have hzero : left.value = 0 := by rw [value, hleft, Int.cast_zero, zero_div]
    rw [hzero]
    exact right.value_pos_iff.mpr hright
  · have hone : right.units.sign ≤ 1 := by
      rcases Int.sign_trichotomy right.units with h | h | h <;> omega
    rw [Int.sign_eq_one_of_pos hleft] at hsign
    exact absurd hsign (not_lt.mpr hone)

/-- The order of decimals is the order of the numbers. -/
theorem cmp_eq_compare (left right : ExactDecimal) :
    left.cmp right = compare left.value right.value := by
  rw [cmp]
  split
  · rename_i hsign
    rcases lt_or_gt_of_ne hsign with hless | hmore
    · rw [compare_lt_iff_lt.mpr hless, compare_lt_iff_lt.mpr (value_lt_of_sign_lt hless)]
    · rw [compare_gt_iff_gt.mpr hmore, compare_gt_iff_gt.mpr (value_lt_of_sign_lt hmore)]
  rename_i hsign
  have hsame : left.units.sign = right.units.sign := not_not.mp hsign
  split
  · rename_i hleft
    have hright : right.units = 0 := by
      rwa [hleft, Int.sign_zero, eq_comm, Int.sign_eq_zero_iff_zero] at hsame
    refine (compare_eq_iff_eq.mpr ?_).symm
    rw [value, value, hleft, hright, Int.cast_zero, zero_div, zero_div]
  rename_i hleft
  have hright : right.units ≠ 0 := by
    intro hright
    rw [hright, Int.sign_zero, Int.sign_eq_zero_iff_zero] at hsame
    exact hleft hsame
  rw [compare_magnitude hleft hright]
  split
  · rename_i hpos
    have hrightPos : 0 < right.units := by
      rwa [Int.sign_eq_one_of_pos hpos, eq_comm, Int.sign_eq_one_iff_pos] at hsame
    rw [abs_of_pos (left.value_pos_iff.mpr hpos), abs_of_pos (right.value_pos_iff.mpr hrightPos)]
  · rename_i hpos
    have hneg : left.units < 0 := lt_of_le_of_ne (not_lt.mp hpos) hleft
    have hrightNeg : right.units < 0 := by
      rwa [Int.sign_eq_neg_one_of_neg hneg, eq_comm, Int.sign_eq_neg_one_iff_neg] at hsame
    rw [abs_of_neg (left.value_neg_iff.mpr hneg), abs_of_neg (right.value_neg_iff.mpr hrightNeg),
      ← Std.OrientedCmp.eq_swap]
    exact compare_congr neg_lt_neg_iff neg_lt_neg_iff

theorem cmp_eq_lt {left right : ExactDecimal} :
    left.cmp right = .lt ↔ left.value < right.value := by
  rw [cmp_eq_compare, compare_lt_iff_lt]

theorem cmp_eq_gt {left right : ExactDecimal} :
    left.cmp right = .gt ↔ right.value < left.value := by
  rw [cmp_eq_compare, compare_gt_iff_gt]

theorem cmp_zero_ne_lt {d : ExactDecimal} : d.cmp zero ≠ .lt ↔ 0 ≤ d.value := by
  rw [ne_eq, cmp_eq_lt, value_zero, not_lt]

theorem value_min (left right : ExactDecimal) :
    (min left right).value = Min.min left.value right.value := by
  rw [min]
  split
  · rename_i hmore
    exact (min_eq_right (cmp_eq_gt.mp hmore).le).symm
  · rename_i hmore
    rw [cmp_eq_gt, not_lt] at hmore
    exact (min_eq_left hmore).symm

theorem value_max (left right : ExactDecimal) :
    (max left right).value = Max.max left.value right.value := by
  rw [max]
  split
  · rename_i hmore
    exact (max_eq_left (cmp_eq_gt.mp hmore).le).symm
  · rename_i hmore
    rw [cmp_eq_gt, not_lt] at hmore
    exact (max_eq_right hmore).symm

/-! ### Checked operations -/

theorem pow10_eq_some {power : ℕ} {factor : ℤ} (hpow : pow10 power = some factor) :
    factor = 10 ^ power := by
  rw [pow10] at hpow
  split at hpow
  · exact (Option.some.inj hpow).symm
  · cases hpow

theorem checkedMul_eq_some {x y product : ℤ} (hmul : checkedMul x y = some product) :
    product = x * y ∧ fits 128 product := by
  rw [checkedMul] at hmul
  split at hmul
  · rename_i hfits
    cases hmul
    exact ⟨rfl, hfits⟩
  · cases hmul

theorem natAbs_lt_of_fits {units : ℤ} (hfits : fits 128 units) (hnonneg : 0 ≤ units) :
    units.natAbs < 2 ^ 127 := by
  rw [fits, decide_eq_true_eq] at hfits
  omega

/-- The units at the common scale denote the same numbers. -/
theorem alignedUnits_eq_some {left right : ExactDecimal} {leftUnits rightUnits : ℤ} {scale : ℕ}
    (haligned : left.alignedUnits right = some (leftUnits, rightUnits, scale)) :
    scale = Nat.max left.scale right.scale ∧ left.value = leftUnits / 10 ^ scale ∧
      right.value = rightUnits / 10 ^ scale ∧ fits 128 leftUnits ∧ fits 128 rightUnits := by
  simp only [alignedUnits, Option.bind_eq_bind, Option.bind_eq_some_iff, Option.pure_def,
    Option.some.injEq, Prod.mk.injEq] at haligned
  obtain ⟨leftFactor, hleftFactor, product, hleft, rightFactor, hrightFactor, other, hright,
    rfl, rfl, rfl⟩ := haligned
  obtain ⟨rfl, hleftFits⟩ := checkedMul_eq_some hleft
  obtain ⟨rfl, hrightFits⟩ := checkedMul_eq_some hright
  have hvalue : ∀ (d : ExactDecimal) (scale : ℕ), d.scale ≤ scale →
      d.value = (d.units * 10 ^ (scale - d.scale) : ℤ) / 10 ^ scale := by
    intro d scale hscale
    have hpow : (10 : ℚ) ^ scale = 10 ^ d.scale * 10 ^ (scale - d.scale) := by
      rw [← pow_add, Nat.add_sub_cancel' hscale]
    rw [value, hpow]
    push_cast
    field_simp
  rw [pow10_eq_some hleftFactor] at hleftFits ⊢
  rw [pow10_eq_some hrightFactor] at hrightFits ⊢
  exact ⟨rfl, hvalue left _ (Nat.le_max_left _ _), hvalue right _ (Nat.le_max_right _ _),
    hleftFits, hrightFits⟩

theorem checked_eq_some {units result : ℤ} (hchecked : checked units = some result) :
    result = units ∧ fits 128 units := by
  rw [checked] at hchecked
  split at hchecked
  · rename_i hfits
    cases hchecked
    exact ⟨rfl, hfits⟩
  · cases hchecked

/-- The units of a decimal that an operation gives are checked, so it is canonical unless it is the
least number of all. -/
theorem canonical_of_checked {units : ℤ} {scale : ℕ} (hfits : fits 128 units)
    (hscale : scale ≤ maxParsedScale) (hnonneg : 0 ≤ (normalized units scale).value) :
    Canonical (normalized units scale) := by
  refine canonical_normalized (natAbs_lt_of_fits hfits ?_) hscale
  have hpow : (0 : ℚ) < 10 ^ scale := by positivity
  rwa [value_normalized, le_div_iff₀ hpow, zero_mul, Int.cast_nonneg_iff] at hnonneg

theorem checkedAdd_eq_some {left right sum : ExactDecimal}
    (hsum : left.checkedAdd right = some sum) :
    sum.value = left.value + right.value ∧
      (left.scale ≤ maxParsedScale → right.scale ≤ maxParsedScale → 0 ≤ sum.value →
        Canonical sum) := by
  simp only [checkedAdd, Option.bind_eq_bind, Option.bind_eq_some_iff, Option.pure_def,
    Option.some.injEq, Prod.exists] at hsum
  obtain ⟨leftUnits, rightUnits, scale, haligned, units, hunits, rfl⟩ := hsum
  obtain ⟨hscale, hleft, hright, -, -⟩ := alignedUnits_eq_some haligned
  obtain ⟨rfl, hfits⟩ := checked_eq_some hunits
  refine ⟨?_, fun hleftScale hrightScale hnonneg ↦ canonical_of_checked hfits ?_ hnonneg⟩
  · rw [value_normalized, hleft, hright]
    push_cast
    ring
  · rw [hscale]
    exact Nat.max_le.mpr ⟨hleftScale, hrightScale⟩

theorem checkedSub_eq_some {left right difference : ExactDecimal}
    (hdifference : left.checkedSub right = some difference) :
    difference.value = left.value - right.value ∧
      (left.scale ≤ maxParsedScale → right.scale ≤ maxParsedScale → 0 ≤ difference.value →
        Canonical difference) := by
  simp only [checkedSub, Option.bind_eq_bind, Option.bind_eq_some_iff, Option.pure_def,
    Option.some.injEq, Prod.exists] at hdifference
  obtain ⟨leftUnits, rightUnits, scale, haligned, units, hunits, rfl⟩ := hdifference
  obtain ⟨hscale, hleft, hright, -, -⟩ := alignedUnits_eq_some haligned
  obtain ⟨rfl, hfits⟩ := checked_eq_some hunits
  refine ⟨?_, fun hleftScale hrightScale hnonneg ↦ canonical_of_checked hfits ?_ hnonneg⟩
  · rw [value_normalized, hleft, hright]
    push_cast
    ring
  · rw [hscale]
    exact Nat.max_le.mpr ⟨hleftScale, hrightScale⟩

theorem scale_normalized_le (units : ℤ) (scale : ℕ) : (normalized units scale).scale ≤ scale := by
  induction scale generalizing units with
  | zero => exact le_rfl
  | succ scale ih =>
    rw [normalized]
    split
    · exact (ih _).trans (Nat.le_succ scale)
    · exact le_rfl

theorem scale_checkedCommonIncrement {left right increment : ExactDecimal}
    (hincrement : left.checkedCommonIncrement right = some increment)
    (hleft : left.scale ≤ maxParsedScale) (hright : right.scale ≤ maxParsedScale) :
    increment.scale ≤ maxParsedScale := by
  rw [checkedCommonIncrement] at hincrement
  split at hincrement
  · cases hincrement
  simp only [Option.bind_eq_bind, Option.bind_eq_some_iff, Option.pure_def, Option.some.injEq,
    Prod.exists] at hincrement
  obtain ⟨leftUnits, rightUnits, scale, haligned, units, -, rfl⟩ := hincrement
  rw [(alignedUnits_eq_some haligned).1]
  exact (scale_normalized_le _ _).trans (Nat.max_le.mpr ⟨hleft, hright⟩)

/-- What is rounded down to an increment is not exceeded, and not negative. -/
theorem floorToIncrement_eq_some {d increment floor : ExactDecimal}
    (hfloor : d.floorToIncrement increment = some floor) :
    0 ≤ floor.value ∧ floor.value ≤ d.value ∧
      (d.scale ≤ maxParsedScale → increment.scale ≤ maxParsedScale → Canonical floor) := by
  rw [floorToIncrement] at hfloor
  split at hfloor
  · cases hfloor
  rename_i hsigns
  obtain ⟨hunits, hincrement⟩ := not_or.mp hsigns
  simp only [Option.bind_eq_bind, Option.bind_eq_some_iff, Option.pure_def, Option.some.injEq,
    Prod.exists] at hfloor
  obtain ⟨valueUnits, incrementUnits, scale, haligned, units, hproduct, rfl⟩ := hfloor
  obtain ⟨hscale, hvalue, hstep, -, -⟩ := alignedUnits_eq_some haligned
  obtain ⟨rfl, hfits⟩ := checkedMul_eq_some hproduct
  have hpow : (0 : ℚ) < 10 ^ scale := by positivity
  have hvalueUnits : 0 ≤ valueUnits := by
    have hnonneg := d.value_nonneg_iff.mpr (not_lt.mp hunits)
    rwa [hvalue, le_div_iff₀ hpow, zero_mul, Int.cast_nonneg_iff] at hnonneg
  have hincrementUnits : 0 < incrementUnits := by
    have hpos := increment.value_pos_iff.mpr (not_le.mp hincrement)
    rwa [hstep, div_pos_iff_of_pos_right hpow, Int.cast_pos] at hpos
  have hquotient : 0 ≤ valueUnits / incrementUnits := Int.ediv_nonneg hvalueUnits hincrementUnits.le
  have hnonneg : 0 ≤ (normalized (valueUnits / incrementUnits * incrementUnits) scale).value := by
    rw [value_normalized]
    exact div_nonneg (by exact_mod_cast mul_nonneg hquotient hincrementUnits.le) hpow.le
  refine ⟨hnonneg, ?_, fun hd hi ↦ canonical_of_checked hfits ?_ hnonneg⟩
  · rw [value_normalized, hvalue, div_le_div_iff_of_pos_right hpow]
    exact_mod_cast Int.ediv_mul_le valueUnits hincrementUnits.ne'
  · rw [hscale]
    exact Nat.max_le.mpr ⟨hd, hi⟩

end Bongus.Num.ExactDecimal
