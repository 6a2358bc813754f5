import Bongus.Num.DecimalText
import Mathlib.Order.Bounds.Basic
import Mathlib.Tactic.LinearCombination

/-!
# The operations on checked decimals

The operations of `execution_engine/src/exact_decimal.rs` that the order boundary and the exchange
filters use, over the full range of their integers. Every decimal that they give is `Normalized`:
its units are a signed 128-bit integer, its scale is an unsigned 32-bit integer, and its fraction
does not end in a zero. A normalized decimal is determined by its number (`Normalized.eq_of_value`),
so the order, which looks only at digits, calls two decimals equal exactly when they are the same
(`cmp_exact`).

An operation refuses when a sign is not allowed or an integer on its way does not fit
(`checkedAdd_eq_none_iff`, `checkedMulDecimal_eq_none_iff` and the others). What it gives otherwise
is the exact result: the sum, the difference, the product, the least common multiple of two
increments, and the nearest multiples of an increment below and above a value
(`arithmetic_exact`).
-/

set_option autoImplicit false
set_option relaxedAutoImplicit false

namespace Bongus.Num.ExactDecimal

def fromInteger (units : ℤ) : ExactDecimal := ⟨units, 0⟩

def checkedScale (scale : ℕ) : Option ℕ := if scale < 2 ^ 32 then some scale else none

/-- `checked_mul` of two decimals. -/
def checkedMulDecimal (left right : ExactDecimal) : Option ExactDecimal := do
  let units ← checkedMul left.units right.units
  let scale ← checkedScale (left.scale + right.scale)
  return normalized units scale

/-- The loop of `gcd`; the remainder of the source has the sign of the dividend. -/
def gcd (left right : ℤ) : ℤ :=
  if right = 0 then |left| else gcd right (left.tmod right)
termination_by right.natAbs
decreasing_by
  rw [Int.natAbs_tmod]
  exact Nat.mod_lt _ (Int.natAbs_pos.mpr ‹_›)

def quantizeToIncrement (value increment : ExactDecimal) (ceil : Bool) : Option ExactDecimal :=
  if value.units < 0 ∨ increment.units ≤ 0 then none
  else do
    let (valueUnits, incrementUnits, scale) ← value.alignedUnits increment
    let quotient := valueUnits / incrementUnits
    let remainder := valueUnits % incrementUnits
    let lots ← if ceil ∧ remainder ≠ 0 then checked (quotient + 1) else some quotient
    let units ← checkedMul lots incrementUnits
    return normalized units scale

def ceilToIncrement (value increment : ExactDecimal) : Option ExactDecimal :=
  value.quantizeToIncrement increment true

theorem quantizeToIncrement_false (value increment : ExactDecimal) :
    value.quantizeToIncrement increment false = value.floorToIncrement increment := by
  simp [quantizeToIncrement, floorToIncrement]

/-- Euclid's loop computes the greatest common divisor. -/
theorem gcd_eq (left right : ℤ) : gcd left right = Int.gcd left right := by
  fun_induction gcd left right with
  | case1 left => rw [Int.gcd_zero_right, Int.abs_eq_natAbs]
  | case2 left right _ ih =>
    rw [ih, Int.gcd_def, Int.gcd_def, Int.natAbs_tmod, Nat.gcd_comm, ← Nat.gcd_rec, Nat.gcd_comm]

/-- `checked_common_increment` as the source has it, with its own loop. -/
theorem checkedCommonIncrement_eq (left right : ExactDecimal) :
    left.checkedCommonIncrement right =
      if left.units ≤ 0 ∨ right.units ≤ 0 then none
      else do
        let (leftUnits, rightUnits, scale) ← left.alignedUnits right
        let units ← checkedMul (leftUnits / gcd leftUnits rightUnits) rightUnits
        return normalized units scale := by
  simp only [gcd_eq, checkedCommonIncrement]

/-! ### Normal forms -/

/-- A decimal of the source that has its normal form. -/
structure Normalized (d : ExactDecimal) : Prop where
  normal : d.scale = 0 ∨ d.units % 10 ≠ 0
  fits : fits 128 d.units
  scale_lt : d.scale < 2 ^ 32

theorem Canonical.toNormalized {d : ExactDecimal} (hd : Canonical d) : Normalized d := by
  refine ⟨hd.normal, ?_, lt_of_le_of_lt hd.scale_le (by decide)⟩
  have hbound := hd.fits
  rw [ExactDecimal.fits, decide_eq_true_eq]
  omega

theorem normalized_normal (units : ℤ) (scale : ℕ) (hfits : fits 128 units)
    (hscale : scale < 2 ^ 32) :
    Normalized (normalized units scale) := by
  induction scale generalizing units with
  | zero => exact ⟨Or.inl rfl, hfits, hscale⟩
  | succ scale ih =>
    rw [normalized]
    split
    · refine ih (units / 10) ?_ (Nat.lt_of_succ_lt hscale)
      rw [fits, decide_eq_true_eq] at hfits ⊢
      omega
    · rename_i hrest
      exact ⟨Or.inr hrest, hfits, hscale⟩

/-- A normal form at a smaller scale has no other normal form of its number at a greater one. -/
theorem scale_le_of_value {d e : ExactDecimal} (he : Normalized e) (hvalue : d.value = e.value) :
    e.scale ≤ d.scale := by
  by_contra hless
  obtain ⟨more, hmore⟩ := Nat.exists_eq_add_of_lt (not_le.mp hless)
  have hunits : e.units = d.units * 10 ^ more * 10 := by
    have hpow : (10 : ℚ) ^ e.scale = 10 ^ d.scale * 10 ^ more * 10 := by
      rw [hmore, pow_succ, pow_add]
    have hquotient := hvalue
    rw [value, value, hpow, div_eq_div_iff (by positivity) (by positivity)] at hquotient
    have hne : (10 : ℚ) ^ d.scale ≠ 0 := by positivity
    have hcast : (e.units : ℚ) = d.units * 10 ^ more * 10 :=
      mul_right_cancel₀ hne (by linear_combination -hquotient)
    exact_mod_cast hcast
  have hten : e.units % 10 = 0 := by
    rw [hunits]
    exact Int.mul_emod_left _ _
  exact he.normal.elim (fun hzero ↦ by omega) fun hrest ↦ hrest hten

/-- A normalized decimal is determined by its number. -/
theorem Normalized.eq_of_value {d e : ExactDecimal} (hd : Normalized d) (he : Normalized e)
    (hvalue : d.value = e.value) : d = e := by
  have hscale : d.scale = e.scale :=
    le_antisymm (scale_le_of_value hd hvalue.symm) (scale_le_of_value he hvalue)
  have hunits : d.units = e.units := by
    have hne : (10 : ℚ) ^ e.scale ≠ 0 := by positivity
    rw [value, value, hscale, div_left_inj' hne, Int.cast_inj] at hvalue
    exact hvalue
  obtain ⟨dUnits, dScale⟩ := d
  obtain ⟨eUnits, eScale⟩ := e
  cases hscale
  cases hunits
  rfl

/-! ### When the operations refuse -/

/-- The units of a decimal at a scale of at least its own. -/
def unitsAt (d : ExactDecimal) (scale : ℕ) : ℤ := d.units * 10 ^ (scale - d.scale)

theorem value_eq_unitsAt {d : ExactDecimal} {scale : ℕ} (hscale : d.scale ≤ scale) :
    d.value = d.unitsAt scale / 10 ^ scale := by
  have hpow : (10 : ℚ) ^ scale = 10 ^ d.scale * 10 ^ (scale - d.scale) := by
    rw [← pow_add, Nat.add_sub_cancel' hscale]
  rw [value, unitsAt, hpow]
  push_cast
  field_simp

/-- A power of ten or the units of an operand do not fit at the common scale. -/
def Misaligned (left right : ExactDecimal) : Prop :=
  let scale := Nat.max left.scale right.scale
  ¬ fits 128 (10 ^ (scale - left.scale)) ∨ ¬ fits 128 (left.unitsAt scale) ∨
    ¬ fits 128 (10 ^ (scale - right.scale)) ∨ ¬ fits 128 (right.unitsAt scale)

theorem power_le_of_pow_le {power : ℕ} (hpower : (10 : ℤ) ^ power ≤ 2 ^ 127) : power ≤ 38 := by
  by_contra hmore
  have hgreat : (10 : ℤ) ^ 39 ≤ 10 ^ power := pow_le_pow_right₀ (by norm_num) (by omega)
  norm_num at hpower hgreat
  omega

theorem fits_pow_iff (power : ℕ) : fits 128 (10 ^ power) ↔ power ≤ 38 := by
  rw [fits, decide_eq_true_eq]
  constructor
  · rintro ⟨-, hless⟩
    exact power_le_of_pow_le hless.le
  · intro hle
    have hsmall : (10 : ℤ) ^ power ≤ 10 ^ 38 := pow_le_pow_right₀ (by norm_num) hle
    have hpos : (0 : ℤ) < 10 ^ power := by positivity
    norm_num at hsmall ⊢
    omega

theorem pow10_of_fits {power : ℕ} (hfits : fits 128 (10 ^ power)) :
    pow10 power = some (10 ^ power) := if_pos ((fits_pow_iff power).mp hfits)

theorem pow10_of_not_fits {power : ℕ} (hfits : ¬ fits 128 (10 ^ power)) : pow10 power = none :=
  if_neg fun hle ↦ hfits ((fits_pow_iff power).mpr hle)

theorem checkedMul_of_fits {x y : ℤ} (hfits : fits 128 (x * y)) : checkedMul x y = some (x * y) :=
  if_pos hfits

theorem checkedMul_of_not_fits {x y : ℤ} (hfits : ¬ fits 128 (x * y)) : checkedMul x y = none :=
  if_neg hfits

theorem alignedUnits_of_not_misaligned {left right : ExactDecimal}
    (hfits : ¬ Misaligned left right) :
    left.alignedUnits right =
      some (left.unitsAt (Nat.max left.scale right.scale),
        right.unitsAt (Nat.max left.scale right.scale), Nat.max left.scale right.scale) := by
  simp only [Misaligned, not_or, not_not] at hfits
  obtain ⟨hleftPower, hleft, hrightPower, hright⟩ := hfits
  rw [alignedUnits, pow10_of_fits hleftPower, pow10_of_fits hrightPower]
  simp only [Option.bind_eq_bind, Option.bind_some]
  rw [checkedMul_of_fits hleft, checkedMul_of_fits hright]
  rfl

/-- The units at the common scale are given exactly when the operands can be aligned. -/
theorem alignedUnits_eq_none_iff {left right : ExactDecimal} :
    left.alignedUnits right = none ↔ Misaligned left right := by
  constructor
  · intro hnone
    by_contra hfits
    rw [alignedUnits_of_not_misaligned hfits] at hnone
    cases hnone
  · intro hfails
    rw [Option.eq_none_iff_forall_not_mem]
    rintro ⟨leftUnits, rightUnits, scale⟩ hsome
    simp only [alignedUnits, Option.bind_eq_bind, Option.mem_def, Option.bind_eq_some_iff,
      Option.pure_def] at hsome
    obtain ⟨leftFactor, hleftPower, _, hleft, rightFactor, hrightPower, _, hright, -⟩ := hsome
    rcases hfails with hfails | hfails | hfails | hfails
    · rw [pow10_of_not_fits hfails] at hleftPower
      cases hleftPower
    · rw [pow10_eq_some hleftPower, checkedMul_of_not_fits hfails] at hleft
      cases hleft
    · rw [pow10_of_not_fits hfails] at hrightPower
      cases hrightPower
    · rw [pow10_eq_some hrightPower, checkedMul_of_not_fits hfails] at hright
      cases hright

theorem alignedUnits_cases (left right : ExactDecimal) :
    Misaligned left right ∧ left.alignedUnits right = none ∨
      ¬ Misaligned left right ∧ left.alignedUnits right =
        some (left.unitsAt (Nat.max left.scale right.scale),
          right.unitsAt (Nat.max left.scale right.scale), Nat.max left.scale right.scale) := by
  by_cases hfails : Misaligned left right
  · exact Or.inl ⟨hfails, alignedUnits_eq_none_iff.mpr hfails⟩
  · exact Or.inr ⟨hfails, alignedUnits_of_not_misaligned hfails⟩

theorem checkedAdd_eq_none_iff {left right : ExactDecimal} :
    left.checkedAdd right = none ↔ Misaligned left right ∨
      ¬ fits 128 (left.unitsAt (Nat.max left.scale right.scale) +
        right.unitsAt (Nat.max left.scale right.scale)) := by
  rcases alignedUnits_cases left right with ⟨hfails, hnone⟩ | ⟨hfits, hsome⟩
  · simp [checkedAdd, hnone, hfails]
  · simp [checkedAdd, hsome, hfits, checked]

theorem checkedSub_eq_none_iff {left right : ExactDecimal} :
    left.checkedSub right = none ↔ Misaligned left right ∨
      ¬ fits 128 (left.unitsAt (Nat.max left.scale right.scale) -
        right.unitsAt (Nat.max left.scale right.scale)) := by
  rcases alignedUnits_cases left right with ⟨hfails, hnone⟩ | ⟨hfits, hsome⟩
  · simp [checkedSub, hnone, hfails]
  · simp [checkedSub, hsome, hfits, checked]

theorem checkedMulDecimal_eq_none_iff {left right : ExactDecimal} :
    left.checkedMulDecimal right = none ↔
      ¬ fits 128 (left.units * right.units) ∨ ¬ left.scale + right.scale < 2 ^ 32 := by
  by_cases hunits : fits 128 (left.units * right.units)
  · simp [checkedMulDecimal, checkedMul, checkedScale, hunits]
  · simp [checkedMulDecimal, checkedMul, hunits]

theorem checkedCommonIncrement_eq_none_iff {left right : ExactDecimal} :
    left.checkedCommonIncrement right = none ↔
      left.units ≤ 0 ∨ right.units ≤ 0 ∨ Misaligned left right ∨
        ¬ fits 128 (left.unitsAt (Nat.max left.scale right.scale) /
          Int.gcd (left.unitsAt (Nat.max left.scale right.scale))
            (right.unitsAt (Nat.max left.scale right.scale)) *
          right.unitsAt (Nat.max left.scale right.scale)) := by
  rw [checkedCommonIncrement]
  split
  · rename_i hsign
    exact iff_of_true rfl (hsign.imp_right Or.inl)
  · rename_i hsign
    obtain ⟨hleft, hright⟩ := not_or.mp hsign
    rcases alignedUnits_cases left right with ⟨hfails, hnone⟩ | ⟨hfits, hsome⟩
    · simp [hnone, hfails]
    · simp [hsome, hfits, checkedMul, hleft, hright]

theorem unitsAt_nonneg {d : ExactDecimal} (hunits : 0 ≤ d.units) (scale : ℕ) :
    0 ≤ d.unitsAt scale := mul_nonneg hunits (by positivity)

theorem unitsAt_pos {d : ExactDecimal} (hunits : 0 < d.units) (scale : ℕ) : 0 < d.unitsAt scale :=
  mul_pos hunits (by positivity)

/-- The whole multiples of an increment that a value is rounded up to. -/
def lotsAbove (valueUnits incrementUnits : ℤ) : ℤ :=
  if valueUnits % incrementUnits ≠ 0 then valueUnits / incrementUnits + 1
  else valueUnits / incrementUnits

theorem lotsAbove_le_iff {valueUnits incrementUnits : ℤ} (hpos : 0 < incrementUnits) (lots : ℤ) :
    lotsAbove valueUnits incrementUnits ≤ lots ↔ valueUnits ≤ lots * incrementUnits := by
  have hdivision := Int.mul_ediv_add_emod valueUnits incrementUnits
  have hrest := Int.emod_nonneg valueUnits hpos.ne'
  have hsmall := Int.emod_lt_of_pos valueUnits hpos
  rw [lotsAbove]
  split
  · rename_i hsome
    rw [Int.add_one_le_iff, Int.ediv_lt_iff_lt_mul hpos]
    refine ⟨le_of_lt, fun hle ↦ lt_of_le_of_ne hle ?_⟩
    rintro rfl
    exact hsome (Int.mul_emod_left _ _)
  · rename_i hnone
    rw [not_not] at hnone
    rw [← mul_le_mul_iff_of_pos_right hpos]
    rw [hnone, add_zero, mul_comm] at hdivision
    rw [hdivision]

/-- What is rounded down fits wherever the value does. -/
theorem floor_fits {d increment : ExactDecimal} (hunits : 0 ≤ d.units)
    (hincrement : 0 < increment.units) (hfits : ¬ Misaligned d increment) {scale : ℕ}
    (hscale : scale = Nat.max d.scale increment.scale) :
    fits 128 (d.unitsAt scale / increment.unitsAt scale * increment.unitsAt scale) := by
  have hpos := unitsAt_pos hincrement scale
  have hnonneg := unitsAt_nonneg hunits scale
  have hle := Int.ediv_mul_le (d.unitsAt scale) hpos.ne'
  have hquotient := mul_nonneg (Int.ediv_nonneg hnonneg hpos.le) hpos.le
  simp only [Misaligned, not_or, not_not, ← hscale] at hfits
  have hvalueFits := hfits.2.1
  rw [fits, decide_eq_true_eq] at hvalueFits ⊢
  omega

theorem floorToIncrement_aligned {d increment : ExactDecimal} (hunits : 0 ≤ d.units)
    (hincrement : 0 < increment.units) (hfits : ¬ Misaligned d increment) {scale : ℕ}
    (hscale : scale = Nat.max d.scale increment.scale) :
    d.floorToIncrement increment = some (normalized
      (d.unitsAt scale / increment.unitsAt scale * increment.unitsAt scale) scale) := by
  have hsigns : ¬ (d.units < 0 ∨ increment.units ≤ 0) :=
    not_or.mpr ⟨not_lt.mpr hunits, not_le.mpr hincrement⟩
  rw [floorToIncrement, if_neg hsigns, alignedUnits_of_not_misaligned hfits, ← hscale]
  simp [checkedMul_of_fits (floor_fits hunits hincrement hfits hscale)]

theorem ceilToIncrement_aligned {d increment : ExactDecimal} (hunits : 0 ≤ d.units)
    (hincrement : 0 < increment.units) (hfits : ¬ Misaligned d increment) {scale : ℕ}
    (hscale : scale = Nat.max d.scale increment.scale) :
    d.ceilToIncrement increment =
      (checkedMul (lotsAbove (d.unitsAt scale) (increment.unitsAt scale))
        (increment.unitsAt scale)).map (normalized · scale) := by
  have hsigns : ¬ (d.units < 0 ∨ increment.units ≤ 0) :=
    not_or.mpr ⟨not_lt.mpr hunits, not_le.mpr hincrement⟩
  rw [ceilToIncrement, quantizeToIncrement, if_neg hsigns, alignedUnits_of_not_misaligned hfits,
    ← hscale, lotsAbove]
  simp only [Option.bind_eq_bind, Option.bind_some, true_and]
  split
  · by_cases hlots : fits 128 (d.unitsAt scale / increment.unitsAt scale + 1)
    · rw [checked, if_pos hlots, Option.bind_some, Option.map_eq_bind]
      rfl
    · -- A number of lots that does not fit does not fit after the multiplication either.
      have hpos := unitsAt_pos hincrement scale
      have hquotient := Int.ediv_nonneg (unitsAt_nonneg hunits scale) hpos.le
      have hproduct : ¬ fits 128 ((d.unitsAt scale / increment.unitsAt scale + 1) *
          increment.unitsAt scale) := by
        have hmore := le_mul_of_one_le_right (hquotient.trans (Int.le_add_one le_rfl)) hpos
        rw [fits, decide_eq_true_eq] at hlots ⊢
        omega
      rw [checked, if_neg hlots, checkedMul_of_not_fits hproduct]
      rfl
  · rw [Option.map_eq_bind]
    rfl

theorem floorToIncrement_eq_none_iff {d increment : ExactDecimal} :
    d.floorToIncrement increment = none ↔
      d.units < 0 ∨ increment.units ≤ 0 ∨ Misaligned d increment := by
  by_cases hsigns : d.units < 0 ∨ increment.units ≤ 0
  · rw [floorToIncrement, if_pos hsigns]
    exact iff_of_true rfl (hsigns.imp_right Or.inl)
  obtain ⟨hunits, hincrement⟩ := not_or.mp hsigns
  rw [or_iff_right hunits, or_iff_right hincrement]
  by_cases hfails : Misaligned d increment
  · rw [floorToIncrement, if_neg hsigns, alignedUnits_eq_none_iff.mpr hfails]
    exact iff_of_true rfl hfails
  · rw [floorToIncrement_aligned (not_lt.mp hunits) (not_le.mp hincrement) hfails rfl]
    exact iff_of_false (Option.some_ne_none _) hfails

theorem ceilToIncrement_eq_none_iff {d increment : ExactDecimal} :
    d.ceilToIncrement increment = none ↔
      d.units < 0 ∨ increment.units ≤ 0 ∨ Misaligned d increment ∨
        ¬ fits 128 (lotsAbove (d.unitsAt (Nat.max d.scale increment.scale))
            (increment.unitsAt (Nat.max d.scale increment.scale)) *
          increment.unitsAt (Nat.max d.scale increment.scale)) := by
  by_cases hsigns : d.units < 0 ∨ increment.units ≤ 0
  · rw [ceilToIncrement, quantizeToIncrement, if_pos hsigns]
    exact iff_of_true rfl (hsigns.imp_right Or.inl)
  obtain ⟨hunits, hincrement⟩ := not_or.mp hsigns
  rw [or_iff_right hunits, or_iff_right hincrement]
  by_cases hfails : Misaligned d increment
  · rw [ceilToIncrement, quantizeToIncrement, if_neg hsigns, alignedUnits_eq_none_iff.mpr hfails]
    exact iff_of_true rfl (Or.inl hfails)
  · rw [ceilToIncrement_aligned (not_lt.mp hunits) (not_le.mp hincrement) hfails rfl,
      or_iff_right hfails, Option.map_eq_none_iff, checkedMul, ite_eq_right_iff]
    simp only [reduceCtorEq, imp_false]

/-! ### What the operations give -/

theorem normalized_aligned {left right : ExactDecimal} (hleft : Normalized left)
    (hright : Normalized right) {units : ℤ} (hfits : fits 128 units) :
    Normalized (normalized units (Nat.max left.scale right.scale)) :=
  normalized_normal units _ hfits (Nat.max_lt.mpr ⟨hleft.scale_lt, hright.scale_lt⟩)

theorem checkedAdd_exact {left right sum : ExactDecimal} (hleft : Normalized left)
    (hright : Normalized right) (hsum : left.checkedAdd right = some sum) :
    Normalized sum ∧ sum.value = left.value + right.value := by
  refine ⟨?_, (checkedAdd_eq_some hsum).1⟩
  simp only [checkedAdd, Option.bind_eq_bind, Option.bind_eq_some_iff, Option.pure_def,
    Option.some.injEq, Prod.exists] at hsum
  obtain ⟨leftUnits, rightUnits, scale, haligned, units, hunits, rfl⟩ := hsum
  obtain ⟨rfl, hfits⟩ := checked_eq_some hunits
  rw [(alignedUnits_eq_some haligned).1]
  exact normalized_aligned hleft hright hfits

theorem checkedSub_exact {left right difference : ExactDecimal} (hleft : Normalized left)
    (hright : Normalized right) (hdifference : left.checkedSub right = some difference) :
    Normalized difference ∧ difference.value = left.value - right.value := by
  refine ⟨?_, (checkedSub_eq_some hdifference).1⟩
  simp only [checkedSub, Option.bind_eq_bind, Option.bind_eq_some_iff, Option.pure_def,
    Option.some.injEq, Prod.exists] at hdifference
  obtain ⟨leftUnits, rightUnits, scale, haligned, units, hunits, rfl⟩ := hdifference
  obtain ⟨rfl, hfits⟩ := checked_eq_some hunits
  rw [(alignedUnits_eq_some haligned).1]
  exact normalized_aligned hleft hright hfits

theorem checkedMulDecimal_exact {left right product : ExactDecimal}
    (hproduct : left.checkedMulDecimal right = some product) :
    Normalized product ∧ product.value = left.value * right.value := by
  simp only [checkedMulDecimal, Option.bind_eq_bind, Option.bind_eq_some_iff, Option.pure_def,
    Option.some.injEq, checkedScale, Option.ite_none_right_eq_some] at hproduct
  obtain ⟨units, hunits, scale, ⟨hscale, rfl⟩, rfl⟩ := hproduct
  obtain ⟨rfl, hfits⟩ := checkedMul_eq_some hunits
  refine ⟨normalized_normal _ _ hfits hscale, ?_⟩
  rw [value_normalized, value, value, pow_add, div_mul_div_comm]
  push_cast
  rfl

/-- The whole multiples of a number. -/
def IsMultiple (number increment : ℚ) : Prop := ∃ lots : ℤ, number = lots * increment

theorem isMultiple_iff {number : ℚ} {units : ℤ} {scale : ℕ} :
    IsMultiple number (units / 10 ^ scale) ↔
      ∃ lots : ℤ, number = (lots * units : ℤ) / 10 ^ scale := by
  refine exists_congr fun lots ↦ ?_
  rw [Int.cast_mul, mul_div_assoc]

theorem div_pow_le_iff {x y : ℤ} {scale : ℕ} :
    (x / 10 ^ scale : ℚ) ≤ y / 10 ^ scale ↔ x ≤ y := by
  rw [div_le_div_iff_of_pos_right (by positivity), Int.cast_le]

/-- Both operands of an operation at their common scale. -/
theorem aligned_values (left right : ExactDecimal) {scale : ℕ}
    (hscale : scale = Nat.max left.scale right.scale) :
    left.value = left.unitsAt scale / 10 ^ scale ∧
      right.value = right.unitsAt scale / 10 ^ scale := by
  rw [hscale]
  exact ⟨value_eq_unitsAt (Nat.le_max_left _ _), value_eq_unitsAt (Nat.le_max_right _ _)⟩

theorem ediv_gcd_mul {x y : ℤ} (hx : 0 ≤ x) (hy : 0 ≤ y) : x / Int.gcd x y * y = Int.lcm x y := by
  lift x to ℕ using hx
  lift y to ℕ using hy
  rw [Int.gcd_natCast_natCast, Int.lcm_natCast_natCast]
  have hnat : x / Nat.gcd x y * y = Nat.lcm x y := Nat.div_mul_right_comm (Nat.gcd_dvd_left x y) y
  exact_mod_cast hnat

theorem checkedCommonIncrement_exact {left right increment : ExactDecimal} (hleft : Normalized left)
    (hright : Normalized right) (hincrement : left.checkedCommonIncrement right = some increment) :
    Normalized increment ∧
      IsLeast {number | 0 < number ∧ IsMultiple number left.value ∧ IsMultiple number right.value}
        increment.value := by
  rw [checkedCommonIncrement] at hincrement
  split at hincrement
  · cases hincrement
  rename_i hsigns
  obtain ⟨hleftSign, hrightSign⟩ := not_or.mp hsigns
  by_cases hfails : Misaligned left right
  · rw [alignedUnits_eq_none_iff.mpr hfails] at hincrement
    cases hincrement
  rw [alignedUnits_of_not_misaligned hfails] at hincrement
  simp only [Option.bind_eq_bind, Option.bind_some, Option.bind_eq_some_iff, Option.pure_def,
    Option.some.injEq] at hincrement
  obtain ⟨units, hunits, rfl⟩ := hincrement
  obtain ⟨rfl, hfits⟩ := checkedMul_eq_some hunits
  refine ⟨normalized_aligned hleft hright hfits, ?_⟩
  obtain ⟨hleftValue, hrightValue⟩ := aligned_values left right rfl
  set scale := Nat.max left.scale right.scale
  have hleftPos := unitsAt_pos (not_le.mp hleftSign) scale
  have hrightPos := unitsAt_pos (not_le.mp hrightSign) scale
  have hpow : (0 : ℚ) < 10 ^ scale := by positivity
  rw [value_normalized, ediv_gcd_mul hleftPos.le hrightPos.le, hleftValue, hrightValue]
  constructor
  · refine ⟨div_pos ?_ hpow, isMultiple_iff.mpr ?_, isMultiple_iff.mpr ?_⟩
    · exact_mod_cast Int.lcm_pos hleftPos.ne' hrightPos.ne'
    · obtain ⟨lots, hlots⟩ := Int.dvd_lcm_left (left.unitsAt scale) (right.unitsAt scale)
      exact ⟨lots, by rw [hlots, mul_comm]⟩
    · obtain ⟨lots, hlots⟩ := Int.dvd_lcm_right (left.unitsAt scale) (right.unitsAt scale)
      exact ⟨lots, by rw [hlots, mul_comm]⟩
  · rintro number ⟨hpos, hleftMultiple, hrightMultiple⟩
    obtain ⟨lots, rfl⟩ := isMultiple_iff.mp hleftMultiple
    obtain ⟨others, hothers⟩ := isMultiple_iff.mp hrightMultiple
    rw [div_left_inj' hpow.ne', Int.cast_inj] at hothers
    rw [div_pos_iff_of_pos_right hpow, Int.cast_pos] at hpos
    have hdivides : (Int.lcm (left.unitsAt scale) (right.unitsAt scale) : ℤ) ∣
        lots * left.unitsAt scale :=
      Int.coe_lcm_dvd (Dvd.intro_left lots rfl) (hothers ▸ Dvd.intro_left others rfl)
    exact div_pow_le_iff.mpr (Int.le_of_dvd hpos hdivides)

theorem floorToIncrement_exact {d increment floor : ExactDecimal} (hd : Normalized d)
    (hincrement : Normalized increment) (hfloor : d.floorToIncrement increment = some floor) :
    Normalized floor ∧
      IsGreatest {number | IsMultiple number increment.value ∧ number ≤ d.value} floor.value := by
  have hnone : ¬ d.floorToIncrement increment = none := by simp [hfloor]
  simp only [floorToIncrement_eq_none_iff, not_or, not_lt, not_le] at hnone
  obtain ⟨hunits, hpositive, hfits⟩ := hnone
  rw [floorToIncrement_aligned hunits hpositive hfits rfl] at hfloor
  have hproduct := floor_fits hunits hpositive hfits rfl
  cases hfloor
  refine ⟨normalized_aligned hd hincrement hproduct, ?_⟩
  obtain ⟨hvalue, hstep⟩ := aligned_values d increment rfl
  set scale := Nat.max d.scale increment.scale
  have hpos := unitsAt_pos hpositive scale
  rw [value_normalized, hvalue, hstep]
  constructor
  · exact ⟨isMultiple_iff.mpr ⟨_, rfl⟩, div_pow_le_iff.mpr (Int.ediv_mul_le _ hpos.ne')⟩
  · rintro number ⟨hmultiple, hbelow⟩
    obtain ⟨lots, rfl⟩ := isMultiple_iff.mp hmultiple
    rw [div_pow_le_iff] at hbelow ⊢
    exact mul_le_mul_of_nonneg_right ((Int.le_ediv_iff_mul_le hpos).mpr hbelow) hpos.le

theorem ceilToIncrement_exact {d increment ceiling : ExactDecimal} (hd : Normalized d)
    (hincrement : Normalized increment) (hceiling : d.ceilToIncrement increment = some ceiling) :
    Normalized ceiling ∧
      IsLeast {number | IsMultiple number increment.value ∧ d.value ≤ number} ceiling.value := by
  have hnone : ¬ d.ceilToIncrement increment = none := by simp [hceiling]
  simp only [ceilToIncrement_eq_none_iff, not_or, not_lt, not_le, not_not] at hnone
  obtain ⟨hunits, hpositive, hfits, hproduct⟩ := hnone
  rw [ceilToIncrement_aligned hunits hpositive hfits rfl, checkedMul_of_fits hproduct] at hceiling
  cases hceiling
  refine ⟨normalized_aligned hd hincrement hproduct, ?_⟩
  obtain ⟨hvalue, hstep⟩ := aligned_values d increment rfl
  set scale := Nat.max d.scale increment.scale
  have hpos := unitsAt_pos hpositive scale
  rw [value_normalized, hvalue, hstep]
  constructor
  · exact ⟨isMultiple_iff.mpr ⟨_, rfl⟩,
      div_pow_le_iff.mpr ((lotsAbove_le_iff hpos _).mp le_rfl)⟩
  · rintro number ⟨hmultiple, habove⟩
    obtain ⟨lots, rfl⟩ := isMultiple_iff.mp hmultiple
    rw [div_pow_le_iff] at habove ⊢
    exact mul_le_mul_of_nonneg_right ((lotsAbove_le_iff hpos lots).mpr habove) hpos.le

/-! ### Rounding twice -/

theorem unitsAt_mul_pow {d : ExactDecimal} {scale finer : ℕ} (hscale : d.scale ≤ scale)
    (hfiner : scale ≤ finer) : d.unitsAt finer = d.unitsAt scale * 10 ^ (finer - scale) := by
  have hpower : finer - d.scale = (scale - d.scale) + (finer - scale) := by omega
  rw [unitsAt, unitsAt, hpower, pow_add, mul_assoc]

theorem fits_of_fits_mul {x y : ℤ} (hy : 0 < y) (hfits : fits 128 (x * y)) : fits 128 x := by
  rw [fits, decide_eq_true_eq] at hfits ⊢
  rcases le_total 0 x with hx | hx
  · have hmore : x * 1 ≤ x * y := mul_le_mul_of_nonneg_left hy hx
    omega
  · have hmore : x * y ≤ x * 1 := mul_le_mul_of_nonpos_left hy hx
    omega

/-- The units of a normal form at a scale between are a part of those at the greater scale. -/
theorem unitsAt_normalized {units : ℤ} {scale coarser : ℕ} (hcoarser : coarser ≤ scale)
    (hscale : (normalized units scale).scale ≤ coarser) :
    (normalized units scale).unitsAt coarser * 10 ^ (scale - coarser) = units := by
  rw [← unitsAt_mul_pow hscale hcoarser]
  have hvalue := value_eq_unitsAt (hscale.trans hcoarser)
  rw [value_normalized, div_left_inj' (by positivity), Int.cast_inj] at hvalue
  exact hvalue.symm

/-- A multiple of an increment can be aligned with the increment again, unless it is zero and the
increment has more places than a power of ten can have. -/
theorem misaligned_again {d increment result : ExactDecimal} {units : ℤ} {scale : ℕ}
    (hscale : scale = Nat.max d.scale increment.scale) (hfits : ¬ Misaligned d increment)
    (hunits : fits 128 units) (hresult : result = normalized units scale)
    (hnormal : Normalized result) (hagain : Misaligned result increment) :
    result = zero ∧ 38 < increment.scale := by
  have hincrement : increment.scale ≤ scale := hscale ▸ Nat.le_max_right d.scale increment.scale
  have hsmaller : result.scale ≤ scale := hresult ▸ scale_normalized_le units scale
  have hcoarser : Nat.max result.scale increment.scale ≤ scale :=
    Nat.max_le.mpr ⟨hsmaller, hincrement⟩
  simp only [Misaligned, not_or, not_not, ← hscale] at hfits
  obtain ⟨-, -, hpower, hstep⟩ := hfits
  rw [fits_pow_iff] at hpower
  have hresultFits : fits 128 (result.unitsAt (Nat.max result.scale increment.scale)) := by
    refine fits_of_fits_mul (y := 10 ^ (scale - Nat.max result.scale increment.scale))
      (by positivity) ?_
    subst hresult
    rwa [unitsAt_normalized hcoarser (Nat.le_max_left _ _)]
  have hstepFits : fits 128 (increment.unitsAt (Nat.max result.scale increment.scale)) := by
    refine fits_of_fits_mul (y := 10 ^ (scale - Nat.max result.scale increment.scale))
      (by positivity) ?_
    rwa [← unitsAt_mul_pow (Nat.le_max_right _ _) hcoarser]
  have hpowerFits : fits 128 (10 ^ (Nat.max result.scale increment.scale - increment.scale)) :=
    (fits_pow_iff _).mpr ((Nat.sub_le_sub_right hcoarser _).trans hpower)
  rcases hagain with hfails | hfails | hfails | hfails
  · rw [fits_pow_iff] at hfails
    have hzero : result.units = 0 := by
      by_contra hne
      refine hfails (power_le_of_pow_le ?_)
      have hone : 1 ≤ |result.units| := Int.one_le_abs hne
      have hproduct : |result.unitsAt (Nat.max result.scale increment.scale)| ≤ 2 ^ 127 := by
        rw [fits, decide_eq_true_eq] at hresultFits
        rw [abs_le]
        exact ⟨hresultFits.1, hresultFits.2.le⟩
      rw [unitsAt, abs_mul, abs_of_pos (by positivity : (0 : ℤ) < 10 ^ _)] at hproduct
      exact (le_mul_of_one_le_left (by positivity) hone).trans hproduct
    have hvalue : result.value = zero.value := by
      rw [value_zero, value, hzero, Int.cast_zero, zero_div]
    have heq : result = zero := hnormal.eq_of_value canonical_zero.toNormalized hvalue
    refine ⟨heq, ?_⟩
    rw [heq] at hfails
    have hmax : Nat.max zero.scale increment.scale = increment.scale := Nat.zero_max _
    rw [hmax] at hfails
    exact not_le.mp hfails
  · exact absurd hresultFits hfails
  · exact absurd hpowerFits hfails
  · exact absurd hstepFits hfails

theorem floorToIncrement_again {d increment floor : ExactDecimal} (hd : Normalized d)
    (hincrement : Normalized increment) (hfloor : d.floorToIncrement increment = some floor) :
    floor.floorToIncrement increment = some floor ∨
      floor.floorToIncrement increment = none ∧ floor = zero ∧ 38 < increment.scale := by
  obtain ⟨hnormal, hgreatest⟩ := floorToIncrement_exact hd hincrement hfloor
  have hnonneg := floor.value_nonneg_iff.mp (floorToIncrement_eq_some hfloor).1
  have hnone : ¬ d.floorToIncrement increment = none := by simp [hfloor]
  simp only [floorToIncrement_eq_none_iff, not_or, not_lt, not_le] at hnone
  obtain ⟨hunits, hpositive, hfits⟩ := hnone
  cases hagain : floor.floorToIncrement increment with
  | none =>
    rw [floorToIncrement_aligned hunits hpositive hfits rfl] at hfloor
    rw [floorToIncrement_eq_none_iff, or_iff_right (not_lt.mpr hnonneg),
      or_iff_right (not_le.mpr hpositive)] at hagain
    exact Or.inr ⟨rfl, misaligned_again rfl hfits (floor_fits hunits hpositive hfits rfl)
      (Option.some.inj hfloor).symm hnormal hagain⟩
  | some again =>
    obtain ⟨hnormalAgain, hgreatestAgain⟩ := floorToIncrement_exact hnormal hincrement hagain
    have hvalue : again.value = floor.value :=
      le_antisymm hgreatestAgain.1.2 (hgreatestAgain.2 ⟨hgreatest.1.1, le_rfl⟩)
    rw [hnormalAgain.eq_of_value hnormal hvalue]
    exact Or.inl rfl

theorem lotsAbove_mul {lots incrementUnits : ℤ} (hpos : 0 < incrementUnits) :
    lotsAbove (lots * incrementUnits) incrementUnits = lots := by
  refine le_antisymm ((lotsAbove_le_iff hpos lots).mpr le_rfl) ?_
  have habove : lots * incrementUnits ≤
      lotsAbove (lots * incrementUnits) incrementUnits * incrementUnits :=
    (lotsAbove_le_iff hpos _).mp le_rfl
  exact le_of_mul_le_mul_right habove hpos

theorem ceilToIncrement_again {d increment ceiling : ExactDecimal} (hd : Normalized d)
    (hincrement : Normalized increment) (hceiling : d.ceilToIncrement increment = some ceiling) :
    ceiling.ceilToIncrement increment = some ceiling := by
  obtain ⟨hnormal, hleast⟩ := ceilToIncrement_exact hd hincrement hceiling
  have hnone : ¬ d.ceilToIncrement increment = none := by simp [hceiling]
  simp only [ceilToIncrement_eq_none_iff, not_or, not_lt, not_le, not_not] at hnone
  obtain ⟨hunits, hpositive, hfits, hproduct⟩ := hnone
  have hnonneg : 0 ≤ ceiling.units :=
    ceiling.value_nonneg_iff.mp ((d.value_nonneg_iff.mpr hunits).trans hleast.1.2)
  have haligned : ¬ Misaligned ceiling increment := by
    intro hfails
    rw [ceilToIncrement_aligned hunits hpositive hfits rfl, checkedMul_of_fits hproduct,
      Option.map_some] at hceiling
    obtain ⟨hzero, hscale⟩ :=
      misaligned_again rfl hfits hproduct (Option.some.inj hceiling).symm hnormal hfails
    -- Only zero is rounded up to zero, and then the value was as far from the increment.
    have hvalue : d.value = zero.value := by
      have habove := hleast.1.2
      rw [hzero, value_zero] at habove
      rw [value_zero]
      exact le_antisymm habove (d.value_nonneg_iff.mpr hunits)
    rw [hd.eq_of_value canonical_zero.toNormalized hvalue, ← hzero] at hfits
    exact hfits hfails
  have hagain : ¬ ceiling.ceilToIncrement increment = none := by
    rw [ceilToIncrement_eq_none_iff, or_iff_right (not_lt.mpr hnonneg),
      or_iff_right (not_le.mpr hpositive), or_iff_right haligned, not_not]
    obtain ⟨hvalue, hstep⟩ := aligned_values ceiling increment rfl
    have hpos := unitsAt_pos hpositive (Nat.max ceiling.scale increment.scale)
    obtain ⟨lots, hlots⟩ := isMultiple_iff.mp (hstep ▸ hleast.1.1)
    rw [hvalue, div_left_inj' (by positivity), Int.cast_inj] at hlots
    rw [hlots, lotsAbove_mul hpos, ← hlots]
    simp only [Misaligned, not_or, not_not] at haligned
    exact haligned.2.1
  obtain ⟨again, hsome⟩ := Option.ne_none_iff_exists'.mp hagain
  obtain ⟨hnormalAgain, hleastAgain⟩ := ceilToIncrement_exact hnormal hincrement hsome
  have hvalue : again.value = ceiling.value :=
    le_antisymm (hleastAgain.2 ⟨hleast.1.1, le_rfl⟩) hleastAgain.1.2
  rw [hsome, hnormalAgain.eq_of_value hnormal hvalue]

/-! ### The results -/

/-- An operation gives the decimals of a description, in normal form, and refuses in no other
case than the stated one. -/
def Yields (result : Option ExactDecimal) (described : ExactDecimal → Prop) (refused : Prop) :
    Prop :=
  (∀ d, result = some d → Normalized d ∧ described d) ∧ (result = none ↔ refused)

/-- The checked operations are exact over the full range of their integers. The exception of
rounding down a second time is that of `misaligned_again`. -/
theorem arithmetic_exact {left right : ExactDecimal} (hleft : Normalized left)
    (hright : Normalized right) :
    let scale := Nat.max left.scale right.scale
    Yields (left.checkedAdd right) (fun sum ↦ sum.value = left.value + right.value)
        (Misaligned left right ∨ ¬ fits 128 (left.unitsAt scale + right.unitsAt scale)) ∧
      Yields (left.checkedSub right) (fun difference ↦ difference.value = left.value - right.value)
        (Misaligned left right ∨ ¬ fits 128 (left.unitsAt scale - right.unitsAt scale)) ∧
      Yields (left.checkedMulDecimal right)
        (fun product ↦ product.value = left.value * right.value)
        (¬ fits 128 (left.units * right.units) ∨ ¬ left.scale + right.scale < 2 ^ 32) ∧
      Yields (left.checkedCommonIncrement right)
        (fun increment ↦ IsLeast {number | 0 < number ∧ IsMultiple number left.value ∧
          IsMultiple number right.value} increment.value)
        (left.units ≤ 0 ∨ right.units ≤ 0 ∨ Misaligned left right ∨
          ¬ fits 128 (left.unitsAt scale / Int.gcd (left.unitsAt scale) (right.unitsAt scale) *
            right.unitsAt scale)) ∧
      Yields (left.floorToIncrement right)
        (fun floor ↦
          IsGreatest {number | IsMultiple number right.value ∧ number ≤ left.value} floor.value ∧
          (floor.floorToIncrement right = some floor ∨
            floor.floorToIncrement right = none ∧ floor = zero ∧ 38 < right.scale))
        (left.units < 0 ∨ right.units ≤ 0 ∨ Misaligned left right) ∧
      Yields (left.ceilToIncrement right)
        (fun ceiling ↦
          IsLeast {number | IsMultiple number right.value ∧ left.value ≤ number} ceiling.value ∧
          ceiling.ceilToIncrement right = some ceiling)
        (left.units < 0 ∨ right.units ≤ 0 ∨ Misaligned left right ∨
          ¬ fits 128 (lotsAbove (left.unitsAt scale) (right.unitsAt scale) *
            right.unitsAt scale)) := by
  refine ⟨⟨?_, checkedAdd_eq_none_iff⟩, ⟨?_, checkedSub_eq_none_iff⟩,
    ⟨?_, checkedMulDecimal_eq_none_iff⟩, ⟨?_, checkedCommonIncrement_eq_none_iff⟩,
    ⟨?_, floorToIncrement_eq_none_iff⟩, ⟨?_, ceilToIncrement_eq_none_iff⟩⟩
  · exact fun sum hsum ↦ checkedAdd_exact hleft hright hsum
  · exact fun difference hdifference ↦ checkedSub_exact hleft hright hdifference
  · exact fun product hproduct ↦ checkedMulDecimal_exact hproduct
  · exact fun increment hincrement ↦ checkedCommonIncrement_exact hleft hright hincrement
  · intro floor hfloor
    obtain ⟨hnormal, hgreatest⟩ := floorToIncrement_exact hleft hright hfloor
    exact ⟨hnormal, hgreatest, floorToIncrement_again hleft hright hfloor⟩
  · intro ceiling hceiling
    obtain ⟨hnormal, hleast⟩ := ceilToIncrement_exact hleft hright hceiling
    exact ⟨hnormal, hleast, ceilToIncrement_again hleft hright hceiling⟩

/-- A value of the filters, and the tick it is rounded to. -/
theorem normalized_price : Normalized ⟨12345609, 7⟩ := ⟨Or.inr (by decide), by decide, by decide⟩

theorem normalized_tick : Normalized ⟨3, 6⟩ := ⟨Or.inr (by decide), by decide, by decide⟩

theorem arithmetic_exact_tick :
    (⟨12345609, 7⟩ : ExactDecimal).floorToIncrement ⟨3, 6⟩ = some ⟨123456, 5⟩ ∧
      IsGreatest {number | IsMultiple number (⟨3, 6⟩ : ExactDecimal).value ∧
        number ≤ (⟨12345609, 7⟩ : ExactDecimal).value} (⟨123456, 5⟩ : ExactDecimal).value := by
  have hfloor : (⟨12345609, 7⟩ : ExactDecimal).floorToIncrement ⟨3, 6⟩ = some ⟨123456, 5⟩ := by
    decide +kernel
  exact ⟨hfloor, ((arithmetic_exact normalized_price normalized_tick).2.2.2.2.1.1 _ hfloor).2.1⟩

/-- The decimals that a program can hold. -/
inductive Produced : ExactDecimal → Prop
  | zero : Produced zero
  | maximum : Produced maximum
  | fromInteger {units : ℤ} (hfits : fits 128 units) : Produced (fromInteger units)
  | fromStr {raw : String} {d : ExactDecimal} (hread : fromStr raw = .ok d) : Produced d
  | fromF64 {number : Lib.Float64.F64} {d : ExactDecimal} (hread : fromF64 number = some d) :
      Produced d
  | checkedAdd {left right d : ExactDecimal} (hleft : Produced left) (hright : Produced right)
      (hsum : left.checkedAdd right = some d) : Produced d
  | checkedSub {left right d : ExactDecimal} (hleft : Produced left) (hright : Produced right)
      (hdifference : left.checkedSub right = some d) : Produced d
  | checkedMul {left right d : ExactDecimal} (hleft : Produced left) (hright : Produced right)
      (hproduct : left.checkedMulDecimal right = some d) : Produced d
  | checkedCommonIncrement {left right d : ExactDecimal} (hleft : Produced left)
      (hright : Produced right) (hincrement : left.checkedCommonIncrement right = some d) :
      Produced d
  | floorToIncrement {left right d : ExactDecimal} (hleft : Produced left)
      (hright : Produced right) (hfloor : left.floorToIncrement right = some d) : Produced d
  | ceilToIncrement {left right d : ExactDecimal} (hleft : Produced left)
      (hright : Produced right) (hceiling : left.ceilToIncrement right = some d) : Produced d

theorem Produced.normalized {d : ExactDecimal} (hd : Produced d) : Normalized d := by
  induction hd with
  | zero => exact canonical_zero.toNormalized
  | maximum => exact ⟨Or.inl rfl, by decide, by decide⟩
  | fromInteger hfits => exact ⟨Or.inl rfl, hfits, Nat.two_pow_pos 32⟩
  | fromStr hread => exact (canonical_of_fromStr hread).toNormalized
  | fromF64 hread =>
    rw [ExactDecimal.fromF64, Option.ite_none_right_eq_some, Lib.Fallible.toOption_eq_some] at hread
    exact (canonical_of_fromStr hread.2).toNormalized
  | checkedAdd _ _ hsum hleft hright => exact (checkedAdd_exact hleft hright hsum).1
  | checkedSub _ _ hdifference hleft hright =>
    exact (checkedSub_exact hleft hright hdifference).1
  | checkedMul _ _ hproduct => exact (checkedMulDecimal_exact hproduct).1
  | checkedCommonIncrement _ _ hincrement hleft hright =>
    exact (checkedCommonIncrement_exact hleft hright hincrement).1
  | floorToIncrement _ _ hfloor hleft hright =>
    exact (floorToIncrement_exact hleft hright hfloor).1
  | ceilToIncrement _ _ hceiling hleft hright =>
    exact (ceilToIncrement_exact hleft hright hceiling).1

theorem length_absoluteSignificand_le {d : ExactDecimal} (hd : Normalized d) :
    d.absoluteSignificand.length ≤ 39 := by
  have hfits := hd.fits
  rw [fits, decide_eq_true_eq] at hfits
  rw [absoluteSignificand_eq, Nat.length_toDigits_le_iff (by norm_num) (by norm_num)]
  norm_num
  omega

/-- The integers that the order computes on its way are within their types. -/
def OrderInRange (d : ExactDecimal) : Prop :=
  d.units.natAbs < 2 ^ 128 ∧ fits 64 d.absoluteSignificand.length ∧ fits 64 d.scale ∧
    fits 64 d.magnitudeExponent

theorem orderInRange {d : ExactDecimal} (hd : Normalized d) : OrderInRange d := by
  have hlength := length_absoluteSignificand_le hd
  have hscale := hd.scale_lt
  have hfits := hd.fits
  rw [fits, decide_eq_true_eq] at hfits
  refine ⟨by omega, ?_, ?_, ?_⟩
  · rw [fits, decide_eq_true_eq]
    omega
  · rw [fits, decide_eq_true_eq]
    omega
  · rw [magnitudeExponent, fits, decide_eq_true_eq]
    omega

/-- The order of two decimals is the order of their numbers, it is computed without an overflow,
and only a decimal and itself are equal in it. -/
theorem cmp_exact {left right : ExactDecimal} (hleft : Produced left) (hright : Produced right) :
    left.cmp right = compare left.value right.value ∧
      (left.cmp right = .eq ↔ left = right) ∧
      right.cmp left = (left.cmp right).swap ∧
      (left.cmp right ≠ .gt ∨ right.cmp left ≠ .gt) ∧
      (left.cmp right ≠ .gt → right.cmp left ≠ .gt → left = right) ∧
      OrderInRange left ∧ OrderInRange right := by
  have hequal : left.value = right.value ↔ left = right :=
    ⟨hleft.normalized.eq_of_value hright.normalized, fun heq ↦ heq ▸ rfl⟩
  rw [cmp_eq_compare, cmp_eq_compare]
  refine ⟨rfl, compare_eq_iff_eq.trans hequal, Std.OrientedCmp.eq_swap, ?_, ?_,
    orderInRange hleft.normalized, orderInRange hright.normalized⟩
  · rw [compare_le_iff_le, compare_le_iff_le]
    exact le_total _ _
  · rw [compare_le_iff_le, compare_le_iff_le]
    exact fun hle hge ↦ hequal.mp (le_antisymm hle hge)

/-- The least integer of all, which no text denotes, and a text of 28 places. -/
theorem cmp_exact_least :
    (fromInteger (-2 ^ 127)).cmp ⟨-1, 28⟩ = .lt ∧
      compare (fromInteger (-2 ^ 127)).value (⟨-1, 28⟩ : ExactDecimal).value = .lt := by
  have hread : fromStr "-0.0000000000000000000000000001" = .ok ⟨-1, 28⟩ := by decide +kernel
  have hcmp : (fromInteger (-2 ^ 127)).cmp ⟨-1, 28⟩ = .lt := by decide +kernel
  have hfits : fits 128 (-2 ^ 127) := by decide
  exact ⟨hcmp, (cmp_exact (.fromInteger hfits) (.fromStr hread)).1 ▸ hcmp⟩

end Bongus.Num.ExactDecimal
