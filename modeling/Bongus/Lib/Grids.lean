import Mathlib.Algebra.Order.Field.Rat
import Mathlib.Algebra.GCDMonoid.Nat
import Mathlib.Data.Rat.Cast.Order
import Mathlib.Order.Bounds.Basic
import Mathlib.Tactic.FieldSimp
import Mathlib.Tactic.Linarith
import Mathlib.Tactic.Ring

/-!
# Grids of rationals

The multiples of a step are a grid. Two grids whose steps are integers over one scale meet in the
grid of the least common multiple (`multiple_common_iff`), and the greatest point of a grid up to a
bound is the bound rounded down (`isGreatest_multiple`).
-/

set_option autoImplicit false
set_option relaxedAutoImplicit false

namespace Bongus.Lib.Grids

/-- The number is a multiple of the step. -/
def Multiple (step x : ℚ) : Prop := ∃ k : ℤ, x = k * step

theorem ediv_gcd_mul_eq_lcm {left right : ℤ} (hleft : 0 < left) (hright : 0 < right) :
    left / Int.gcd left right * right = Int.lcm left right := by
  have hgcd : (0 : ℤ) < Int.gcd left right := by
    exact_mod_cast Int.gcd_pos_of_ne_zero_left _ hleft.ne'
  have hproduct : (Int.gcd left right : ℤ) * Int.lcm left right = left * right := by
    have hcast : ((Int.gcd left right * Int.lcm left right : ℕ) : ℤ) =
        (left.natAbs * right.natAbs : ℕ) := congrArg Nat.cast (Int.gcd_mul_lcm left right)
    push_cast at hcast
    rwa [abs_of_pos hleft, abs_of_pos hright] at hcast
  have hquotient : left / Int.gcd left right * Int.gcd left right = left :=
    Int.ediv_mul_cancel (Int.gcd_dvd_left _ _)
  refine mul_left_cancel₀ hgcd.ne' ?_
  rw [hproduct]
  calc (Int.gcd left right : ℤ) * (left / Int.gcd left right * right)
      = left / Int.gcd left right * Int.gcd left right * right := by ring
    _ = left * right := by rw [hquotient]

theorem multiple_div_iff {step : ℤ} {scale x : ℚ} :
    Multiple (step / scale) x ↔ ∃ units : ℤ, step ∣ units ∧ x = units / scale := by
  constructor
  · rintro ⟨k, rfl⟩
    refine ⟨k * step, Dvd.intro_left k rfl, ?_⟩
    push_cast
    ring
  · rintro ⟨units, ⟨k, rfl⟩, rfl⟩
    refine ⟨k, ?_⟩
    push_cast
    ring

/-- A number is on both grids exactly if it is on the grid of the common step. -/
theorem multiple_common_iff {left right : ℤ} (hleft : 0 < left) (hright : 0 < right) {scale : ℚ}
    (hscale : 0 < scale) (x : ℚ) :
    Multiple ((left / Int.gcd left right * right : ℤ) / scale) x ↔
      Multiple (left / scale) x ∧ Multiple (right / scale) x := by
  rw [ediv_gcd_mul_eq_lcm hleft hright, multiple_div_iff, multiple_div_iff,
    multiple_div_iff]
  constructor
  · rintro ⟨units, hdvd, rfl⟩
    exact ⟨⟨units, (Int.dvd_lcm_left left right).trans hdvd, rfl⟩,
      ⟨units, (Int.dvd_lcm_right left right).trans hdvd, rfl⟩⟩
  · rintro ⟨⟨units, hfirst, rfl⟩, ⟨other, hsecond, hsame⟩⟩
    have hunits : units = other := by
      rw [div_left_inj' hscale.ne'] at hsame
      exact_mod_cast hsame
    exact ⟨units, Int.coe_lcm_dvd hfirst (hunits ▸ hsecond), rfl⟩

/-- A bound rounded down to the grid is its greatest point up to the bound. -/
theorem isGreatest_multiple {value step : ℤ} (hstep : 0 < step) {scale : ℚ} (hscale : 0 < scale) :
    IsGreatest {x : ℚ | Multiple (step / scale) x ∧ x ≤ value / scale}
      ((value / step * step : ℤ) / scale) := by
  constructor
  · refine ⟨(multiple_div_iff).mpr ⟨_, Dvd.intro_left _ rfl, rfl⟩, ?_⟩
    rw [div_le_div_iff_of_pos_right hscale]
    exact_mod_cast Int.ediv_mul_le value hstep.ne'
  · rintro x ⟨hmultiple, hle⟩
    obtain ⟨units, ⟨k, rfl⟩, rfl⟩ := (multiple_div_iff).mp hmultiple
    rw [div_le_div_iff_of_pos_right hscale] at hle ⊢
    have hbound : step * k ≤ value := by exact_mod_cast hle
    have hk : k ≤ value / step := (Int.le_ediv_iff_mul_le hstep).mpr (by linarith)
    have hmul := mul_le_mul_of_nonneg_right hk hstep.le
    have hlast : step * k ≤ value / step * step := by linarith
    exact_mod_cast hlast

/-- A number rounded down to a grid is the greatest point of the grid up to it. -/
theorem isGreatest_floor {step : ℚ} (hstep : 0 < step) (x : ℚ) :
    IsGreatest {y | Multiple step y ∧ y ≤ x} ((x / step).floor * step) := by
  have hfloor : ((x / step).floor : ℚ) ≤ x / step := Rat.floor_le _
  refine ⟨⟨⟨_, rfl⟩, (le_div_iff₀ hstep).mp hfloor⟩, ?_⟩
  rintro y ⟨⟨k, rfl⟩, hle⟩
  have hk : k ≤ (x / step).floor := Rat.le_floor_iff.mpr ((le_div_iff₀ hstep).mpr hle)
  have hcast : (k : ℚ) ≤ (x / step).floor := by exact_mod_cast hk
  exact mul_le_mul_of_nonneg_right hcast hstep.le

/-- A number rounded up to a grid is the least point of the grid from it on. -/
theorem isLeast_ceil {step : ℚ} (hstep : 0 < step) (x : ℚ) :
    IsLeast {y | Multiple step y ∧ x ≤ y} ((x / step).ceil * step) := by
  have hceil : x / step ≤ ((x / step).ceil : ℚ) := Rat.le_ceil
  refine ⟨⟨⟨_, rfl⟩, (div_le_iff₀ hstep).mp hceil⟩, ?_⟩
  rintro y ⟨⟨k, rfl⟩, hle⟩
  have hk : (x / step).ceil ≤ k := Rat.ceil_le_iff.mpr ((div_le_iff₀ hstep).mpr hle)
  have hcast : ((x / step).ceil : ℚ) ≤ k := by exact_mod_cast hk
  exact mul_le_mul_of_nonneg_right hcast hstep.le

end Bongus.Lib.Grids
