import Bongus.Engine.ExchangeReplies
import Bongus.Lib.Grids
import Bongus.Num.DecimalValue

/-!
# The quantity of an entry

Both legs of an entry have one quantity, which every filter of both markets has to admit.
`normalizeCommonEntryQuantity` is `normalize_common_entry_quantity` of
`execution_engine/src/order_manager.rs`. The request was capped at the four maxima before. Doubles
are read as the exact decimals that they are made from.

`common_entry_quantity_maximal` says that the quantity is the greatest common multiple of the four
steps up to the request, and that there is none only if no common multiple reaches the minima.
-/

set_option autoImplicit false
set_option relaxedAutoImplicit false

namespace Bongus.Num.ExactDecimal

open Lib.Grids

/-- The common increment is positive, and its grid is where the two grids meet. -/
theorem checkedCommonIncrement_eq_some {left right increment : ExactDecimal}
    (hincrement : left.checkedCommonIncrement right = some increment) :
    0 < increment.value ∧
      ∀ x, Multiple increment.value x ↔ Multiple left.value x ∧ Multiple right.value x := by
  rw [checkedCommonIncrement] at hincrement
  split at hincrement
  · cases hincrement
  rename_i hsigns
  obtain ⟨hleftUnits, hrightUnits⟩ := not_or.mp hsigns
  simp only [Option.bind_eq_bind, Option.bind_eq_some_iff, Option.pure_def, Option.some.injEq,
    Prod.exists] at hincrement
  obtain ⟨leftUnits, rightUnits, scale, haligned, units, hproduct, rfl⟩ := hincrement
  obtain ⟨-, hleft, hright, -, -⟩ := alignedUnits_eq_some haligned
  obtain ⟨rfl, -⟩ := checkedMul_eq_some hproduct
  have hpow : (0 : ℚ) < 10 ^ scale := by positivity
  have hleftPos : 0 < leftUnits := by
    have hpos := left.value_pos_iff.mpr (not_le.mp hleftUnits)
    rwa [hleft, div_pos_iff_of_pos_right hpow, Int.cast_pos] at hpos
  have hrightPos : 0 < rightUnits := by
    have hpos := right.value_pos_iff.mpr (not_le.mp hrightUnits)
    rwa [hright, div_pos_iff_of_pos_right hpow, Int.cast_pos] at hpos
  rw [value_normalized, hleft, hright]
  refine ⟨div_pos ?_ hpow, multiple_common_iff hleftPos hrightPos hpow⟩
  rw [ediv_gcd_mul_eq_lcm hleftPos hrightPos]
  exact_mod_cast Int.lcm_pos hleftPos.ne' hrightPos.ne'

/-- What is rounded down is the greatest multiple of the increment that is not exceeded. -/
theorem isGreatest_floorToIncrement {d increment floor : ExactDecimal}
    (hfloor : d.floorToIncrement increment = some floor) :
    IsGreatest {x | Multiple increment.value x ∧ x ≤ d.value} floor.value := by
  rw [floorToIncrement] at hfloor
  split at hfloor
  · cases hfloor
  rename_i hsigns
  simp only [Option.bind_eq_bind, Option.bind_eq_some_iff, Option.pure_def, Option.some.injEq,
    Prod.exists] at hfloor
  obtain ⟨valueUnits, incrementUnits, scale, haligned, units, hproduct, rfl⟩ := hfloor
  obtain ⟨-, hvalue, hstep, -, -⟩ := alignedUnits_eq_some haligned
  obtain ⟨rfl, -⟩ := checkedMul_eq_some hproduct
  have hpow : (0 : ℚ) < 10 ^ scale := by positivity
  have hincrementUnits : 0 < incrementUnits := by
    have hpos := increment.value_pos_iff.mpr (not_le.mp (not_or.mp hsigns).2)
    rwa [hstep, div_pos_iff_of_pos_right hpow, Int.cast_pos] at hpos
  rw [value_normalized, hvalue, hstep]
  exact isGreatest_multiple hincrementUnits hpow

end Bongus.Num.ExactDecimal

namespace Bongus.Engine

open Lib.Grids Num ExactDecimal

/-! ### The model -/

/-- A live value is taken only if it is positive. -/
def exactLiveValue (value : ExactDecimal) : Option ExactDecimal :=
  if value.isPositive then some value else none

def roundDownToStep (value step : ExactDecimal) : Option ExactDecimal :=
  (exactLiveValue value).bind (·.floorToIncrement step)

/-- The smallest common increment of the four step sizes. -/
def ExchangeSymbolInfo.commonIncrement (info : ExchangeSymbolInfo) : Option ExactDecimal := do
  let spotIncrement ← info.spot.stepSize.checkedCommonIncrement info.spot.marketStepSize
  let futuresIncrement ←
    info.futures.stepSize.checkedCommonIncrement info.futures.marketStepSize
  spotIncrement.checkedCommonIncrement futuresIncrement

def ExchangeSymbolInfo.largestMinimum (info : ExchangeSymbolInfo) : ExactDecimal :=
  ((info.spot.minQty.max info.spot.marketMinQty).max info.futures.minQty).max
    info.futures.marketMinQty

def ExchangeSymbolInfo.smallestMaximum (info : ExchangeSymbolInfo) : ExactDecimal :=
  ((info.spot.maxQty.min info.spot.marketMaxQty).min info.futures.maxQty).min
    info.futures.marketMaxQty

def normalizeCommonEntryQuantity (info : ExchangeSymbolInfo) (requestedQuantity : ExactDecimal) :
    Option ExactDecimal := do
  let commonIncrement ← info.commonIncrement
  let normalized ← roundDownToStep requestedQuantity commonIncrement
  if normalized.cmp info.largestMinimum ≠ .lt ∧ normalized.cmp info.smallestMaximum ≠ .gt then
    some normalized
  else none

/-! ### What the filters admit -/

/-- The number is a multiple of all four step sizes. -/
structure Common (info : ExchangeSymbolInfo) (x : ℚ) : Prop where
  spot : Multiple info.spot.stepSize.value x
  spotMarket : Multiple info.spot.marketStepSize.value x
  futures : Multiple info.futures.stepSize.value x
  futuresMarket : Multiple info.futures.marketStepSize.value x

/-- The number reaches all four minima. -/
def Reaches (info : ExchangeSymbolInfo) (x : ℚ) : Prop :=
  info.spot.minQty.value ≤ x ∧ info.spot.marketMinQty.value ≤ x ∧
    info.futures.minQty.value ≤ x ∧ info.futures.marketMinQty.value ≤ x

/-- No operation on the step sizes and the request leaves 128 bits. -/
def WithinRange (info : ExchangeSymbolInfo) (requested : ExactDecimal) : Prop :=
  ∃ increment, info.commonIncrement = some increment ∧
    (requested.isPositive = true → (requested.floorToIncrement increment).isSome = true)

theorem reaches_iff (info : ExchangeSymbolInfo) (x : ℚ) :
    Reaches info x ↔ info.largestMinimum.value ≤ x := by
  rw [ExchangeSymbolInfo.largestMinimum, value_max, value_max, value_max, max_le_iff, max_le_iff,
    max_le_iff, Reaches, and_assoc, and_assoc]

theorem multiple_commonIncrement {info : ExchangeSymbolInfo} {increment : ExactDecimal}
    (hincrement : info.commonIncrement = some increment) (x : ℚ) :
    Multiple increment.value x ↔ Common info x := by
  simp only [ExchangeSymbolInfo.commonIncrement, Option.bind_eq_bind,
    Option.bind_eq_some_iff] at hincrement
  obtain ⟨spot, hspot, futures, hfutures, hcommon⟩ := hincrement
  rw [(checkedCommonIncrement_eq_some hcommon).2, (checkedCommonIncrement_eq_some hspot).2,
    (checkedCommonIncrement_eq_some hfutures).2]
  exact ⟨fun ⟨⟨hfirst, hsecond⟩, hthird, hfourth⟩ ↦ ⟨hfirst, hsecond, hthird, hfourth⟩,
    fun hall ↦ ⟨⟨hall.spot, hall.spotMarket⟩, hall.futures, hall.futuresMarket⟩⟩

/-- A positive request is rounded down, and the result is taken if it reaches the minima. The
maxima admit it because the request was capped. -/
theorem normalizeCommonEntryQuantity_eq {info : ExchangeSymbolInfo}
    {requested increment floor : ExactDecimal} (hincrement : info.commonIncrement = some increment)
    (hpositive : requested.isPositive = true)
    (hfloor : requested.floorToIncrement increment = some floor)
    (hcapped : requested.value ≤ info.smallestMaximum.value) :
    normalizeCommonEntryQuantity info requested =
      if floor.cmp info.largestMinimum ≠ .lt then some floor else none := by
  have hmaximum : floor.cmp info.smallestMaximum ≠ .gt := by
    rw [Ne, cmp_eq_gt, not_lt]
    exact (isGreatest_floorToIncrement hfloor).1.2.trans hcapped
  simp only [normalizeCommonEntryQuantity, roundDownToStep, exactLiveValue, hincrement, hpositive,
    hfloor, if_true, Option.bind_eq_bind, Option.bind_some, hmaximum, ne_eq, not_false_eq_true,
    and_true]

/-- Of a request within the maxima the quantity is the greatest common multiple of the steps that is
not above it, if that reaches the minima. There is none exactly if no common multiple lies between
the minima and the request. -/
theorem common_entry_quantity_maximal (info : ExchangeSymbolInfo) (requested : ExactDecimal)
    (hminimum : 0 < info.largestMinimum.value)
    (hcapped : requested.value ≤ info.smallestMaximum.value)
    (hrange : WithinRange info requested) :
    (∀ quantity, normalizeCommonEntryQuantity info requested = some quantity →
      IsGreatest {x | Common info x ∧ x ≤ requested.value} quantity.value ∧
        Reaches info quantity.value) ∧
    (∀ x, IsGreatest {x | Common info x ∧ x ≤ requested.value} x → Reaches info x →
      ∃ quantity, normalizeCommonEntryQuantity info requested = some quantity ∧
        quantity.value = x) ∧
    (normalizeCommonEntryQuantity info requested = none ↔
      ¬ ∃ x, Common info x ∧ Reaches info x ∧ x ≤ requested.value) := by
  obtain ⟨increment, hincrement, hfits⟩ := hrange
  by_cases hpositive : requested.isPositive = true
  · obtain ⟨floor, hfloor⟩ := Option.isSome_iff_exists.mp (hfits hpositive)
    have hgreatest : IsGreatest {x | Common info x ∧ x ≤ requested.value} floor.value := by
      simpa only [multiple_commonIncrement hincrement] using isGreatest_floorToIncrement hfloor
    have hreaches : floor.cmp info.largestMinimum ≠ .lt ↔ Reaches info floor.value := by
      rw [Ne, cmp_eq_lt, not_lt, reaches_iff]
    rw [normalizeCommonEntryQuantity_eq hincrement hpositive hfloor hcapped]
    by_cases hreached : Reaches info floor.value
    · rw [if_pos (hreaches.mpr hreached)]
      refine ⟨?_, fun x hx _ ↦ ⟨floor, rfl, hgreatest.unique hx⟩, ?_⟩
      · rintro quantity ⟨⟩
        exact ⟨hgreatest, hreached⟩
      · refine iff_of_false (Option.some_ne_none floor) (not_not_intro ⟨floor.value, ?_⟩)
        exact ⟨hgreatest.1.1, hreached, hgreatest.1.2⟩
    · rw [if_neg (hreaches.not.mpr hreached)]
      refine ⟨nofun, fun x hx hx' ↦ ?_, iff_of_true rfl ?_⟩
      · rw [← hgreatest.unique hx] at hx'
        exact absurd hx' hreached
      · -- a common multiple up to the request is at most the greatest one, which is too small
        rintro ⟨x, hcommon, hx, hle⟩
        rw [reaches_iff] at hx hreached
        exact hreached (hx.trans (hgreatest.2 ⟨hcommon, hle⟩))
  · -- what is not positive is refused, and nothing below it reaches the positive minimum
    have hsmall : requested.value ≤ 0 := by
      rw [isPositive, decide_eq_true_eq, gt_iff_lt, ← value_pos_iff] at hpositive
      exact not_lt.mp hpositive
    have hnone : normalizeCommonEntryQuantity info requested = none := by
      simp only [normalizeCommonEntryQuantity, roundDownToStep, exactLiveValue, hincrement,
        if_neg hpositive, Option.bind_eq_bind, Option.bind_some, Option.bind_none]
    have hbelow {x : ℚ} (hle : x ≤ requested.value) : ¬ Reaches info x := by
      rw [reaches_iff]
      intro hx
      linarith
    rw [hnone]
    refine ⟨nofun, fun x hx hx' ↦ absurd hx' (hbelow hx.1.2), iff_of_true rfl ?_⟩
    rintro ⟨x, -, hx, hle⟩
    exact hbelow hle hx

/-- Filters with four different step sizes. -/
def sampleInfo : ExchangeSymbolInfo where
  spot := { QuantityFilters.unknown with
    stepSize := ⟨1, 2⟩
    marketStepSize := ⟨4, 2⟩
    scale_stepSize := by decide
    scale_marketStepSize := by decide }
  futures := { QuantityFilters.unknown with
    stepSize := ⟨6, 3⟩
    marketStepSize := ⟨1, 1⟩
    scale_stepSize := by decide
    scale_marketStepSize := QuantityFilters.unknown.scale_marketStepSize }

theorem sample_quantity_maximal :
    normalizeCommonEntryQuantity sampleInfo ⟨2, 0⟩ = some ⟨18, 1⟩ ∧
      IsGreatest {x | Common sampleInfo x ∧ x ≤ (⟨2, 0⟩ : ExactDecimal).value}
        (⟨18, 1⟩ : ExactDecimal).value := by
  have hquantity : normalizeCommonEntryQuantity sampleInfo ⟨2, 0⟩ = some ⟨18, 1⟩ := by
    decide +kernel
  exact ⟨hquantity, ((common_entry_quantity_maximal sampleInfo ⟨2, 0⟩ (by decide +kernel)
    (by decide +kernel) ⟨⟨6, 1⟩, by decide +kernel, fun _ ↦ by decide +kernel⟩).1 _ hquantity).1⟩

end Bongus.Engine
