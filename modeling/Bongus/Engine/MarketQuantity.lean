import Bongus.Engine.SymbolFilters
import Bongus.Num.DecimalText

/-!
# Quantities of market orders and the document of the exchange

The text of a quantity for a market order is checked against the document that the filters were read
from. What a filter says of a number is taken from the document itself (`OnGrid`, `Conforms`), where
a bound or a step that is absent or zero says nothing.

`market_quantity_conforms` says that the text denotes the greatest number on the common grid up to
the request, and that it conforms to the document. There is no text only if no number of the grid
conforms that is less than a step below the request, or if a number leaves 128 bits.
-/

set_option autoImplicit false
set_option relaxedAutoImplicit false

namespace Bongus.Lib.Grids

/-- Two points of a grid that are less than a step apart are the same. -/
theorem Multiple.eq_of_lt {step x y : ℚ} (hx : Multiple step x) (hy : Multiple step y)
    (hle : x ≤ y) (hclose : y - x < step) : x = y := by
  obtain ⟨j, rfl⟩ := hx
  obtain ⟨k, rfl⟩ := hy
  have hstep : 0 < step := by linarith
  have hlower : (j : ℚ) ≤ k := le_of_mul_le_mul_right hle hstep
  have hupper : (k : ℚ) - j < 1 := by
    rw [← sub_mul] at hclose
    exact lt_of_mul_lt_mul_right (by rwa [one_mul]) hstep.le
  have hsame : j = k := by
    have hint : k - j < 1 := by exact_mod_cast hupper
    have hint' : j ≤ k := by exact_mod_cast hlower
    omega
  rw [hsame]

theorem multiple_self (step : ℚ) : Multiple step step := ⟨1, by simp⟩

/-- The step is the least positive point of its grid. -/
theorem isLeast_step {step : ℚ} (hstep : 0 < step) :
    IsLeast {x | 0 < x ∧ Multiple step x} step := by
  refine ⟨⟨hstep, multiple_self step⟩, ?_⟩
  rintro x ⟨hx, k, rfl⟩
  have hk : (0 : ℚ) < k := pos_of_mul_pos_left hx hstep.le
  have hone : (1 : ℚ) ≤ k := by exact_mod_cast hk
  exact le_mul_of_one_le_left hstep.le hone

end Bongus.Lib.Grids

namespace Bongus.Num.ExactDecimal

open Lib.Grids

/-! ### Normal forms -/

/-- There are no trailing zeros in the fraction. -/
def Normal (d : ExactDecimal) : Prop := d.scale = 0 ∨ d.units % 10 ≠ 0

theorem normal_normalized (units : ℤ) (scale : ℕ) : Normal (normalized units scale) := by
  induction scale generalizing units with
  | zero => exact Or.inl rfl
  | succ scale ih =>
    rw [normalized]
    split
    · exact ih _
    · rename_i hrest
      exact Or.inr hrest

/-- A normal form has the least scale of all that denote its number. -/
theorem Normal.scale_le {d : ExactDecimal} (hnormal : d.Normal) {units : ℤ} {scale : ℕ}
    (hvalue : d.value = units / 10 ^ scale) :
    d.scale ≤ scale ∧ units = d.units * 10 ^ (scale - d.scale) := by
  have hpow : ∀ power : ℕ, (10 : ℚ) ^ power ≠ 0 := fun power ↦ by positivity
  have hcross : d.units * 10 ^ scale = units * 10 ^ d.scale := by
    rw [value, div_eq_div_iff (hpow _) (hpow _)] at hvalue
    exact_mod_cast hvalue
  have hle : d.scale ≤ scale := by
    by_contra hless
    obtain ⟨more, hmore⟩ := Nat.exists_eq_add_of_lt (not_le.mp hless)
    rw [hmore, pow_add, pow_add, pow_one] at hcross
    have hunits : d.units = units * 10 ^ more * 10 := by
      refine mul_right_cancel₀ (pow_ne_zero scale (by norm_num : (10 : ℤ) ≠ 0)) ?_
      rw [hcross]
      ring
    rcases hnormal with hzero | hrest
    · omega
    · exact hrest (by rw [hunits]; exact Int.mul_emod_left _ _)
  refine ⟨hle, mul_right_cancel₀ (pow_ne_zero d.scale (by norm_num : (10 : ℤ) ≠ 0)) ?_⟩
  rw [← hcross, mul_assoc, ← pow_add, Nat.sub_add_cancel hle]

theorem Normal.eq_of_value {first second : ExactDecimal} (hfirst : first.Normal)
    (hsecond : second.Normal) (hvalue : first.value = second.value) : first = second := by
  obtain ⟨hle, hunits⟩ := hfirst.scale_le hvalue
  obtain ⟨hge, -⟩ := hsecond.scale_le hvalue.symm
  obtain ⟨units, scale⟩ := first
  obtain ⟨units', scale'⟩ := second
  have hscale : scale = scale' := le_antisymm hle hge
  subst hscale
  simp only [Nat.sub_self, pow_zero, mul_one] at hunits
  rw [hunits]

/-! ### Rounding down -/

theorem floorToIncrement_normalized {d increment floor : ExactDecimal}
    (hfloor : d.floorToIncrement increment = some floor) :
    ∃ units scale, floor = normalized units scale ∧ fits 128 units = true ∧
      increment.scale ≤ scale := by
  rw [floorToIncrement] at hfloor
  split at hfloor
  · cases hfloor
  simp only [Option.bind_eq_bind, Option.bind_eq_some_iff, Option.pure_def, Option.some.injEq,
    Prod.exists] at hfloor
  obtain ⟨valueUnits, incrementUnits, scale, haligned, units, hproduct, rfl⟩ := hfloor
  refine ⟨units, scale, rfl, (checkedMul_eq_some hproduct).2, ?_⟩
  rw [(alignedUnits_eq_some haligned).1]
  exact Nat.le_max_right _ _

/-- What was rounded down can be written with the places of the increment, and is read back. -/
theorem formatToScale_floor {d increment floor : ExactDecimal}
    (hscale : increment.scale ≤ maxParsedScale)
    (hfloor : d.floorToIncrement increment = some floor) :
    ∃ text, floor.formatToScale increment.scale = some text ∧ fromStr text = .ok floor := by
  obtain ⟨units, scale, hnormalized, hfits, hplaces⟩ := floorToIncrement_normalized hfloor
  obtain ⟨hnonneg, -, -⟩ := floorToIncrement_eq_some hfloor
  obtain ⟨lots, hlots⟩ := (isGreatest_floorToIncrement hfloor).1.1
  have hnormal : floor.Normal := hnormalized ▸ normal_normalized units scale
  obtain ⟨written, hvalue⟩ : ∃ written : ℤ, floor.value = written / 10 ^ increment.scale := by
    refine ⟨lots * increment.units, ?_⟩
    rw [hlots, value]
    push_cast
    ring
  obtain ⟨hle, hwritten⟩ := hnormal.scale_le hvalue
  -- at the greater scale the number has more units, and those fit
  have hmore : units = written * 10 ^ (scale - increment.scale) := by
    have hboth : (written : ℚ) / 10 ^ increment.scale = units / 10 ^ scale := by
      rw [← hvalue, hnormalized, value_normalized]
    rw [div_eq_div_iff (by positivity) (by positivity)] at hboth
    have hcross : written * 10 ^ scale = units * 10 ^ increment.scale := by exact_mod_cast hboth
    refine mul_right_cancel₀ (pow_ne_zero increment.scale (by norm_num : (10 : ℤ) ≠ 0)) ?_
    rw [← hcross, mul_assoc, ← pow_add, Nat.sub_add_cancel hplaces]
  have hwrittenNonneg : 0 ≤ written := by
    rw [hvalue, le_div_iff₀ (by positivity), zero_mul] at hnonneg
    exact_mod_cast hnonneg
  have hbound : written ≤ units := by
    rw [hmore]
    exact le_mul_of_one_le_right hwrittenNonneg (one_le_pow₀ (by norm_num))
  have hunits : written.natAbs < 2 ^ 127 := by
    rw [fits, decide_eq_true_eq] at hfits
    omega
  refine ⟨renderUnits written increment.scale, ?_, ?_⟩
  · have hpower : pow10 (increment.scale - floor.scale) =
        some (10 ^ (increment.scale - floor.scale)) := by
      have hmax : maxParsedScale = 28 := rfl
      exact if_pos (by omega)
    have hproduct : checkedMul floor.units (10 ^ (increment.scale - floor.scale)) =
        some written := by
      rw [checkedMul, ← hwritten, fits]
      exact if_pos (by rw [decide_eq_true_eq]; omega)
    rw [formatToScale, if_neg (not_lt.mpr hle), hpower]
    simp [hproduct]
  · rw [fromStr_renderUnits hunits hscale]
    congr 1
    refine (normal_normalized _ _).eq_of_value hnormal ?_
    rw [value_normalized, hvalue]

/-- A positive number is rounded down unless the two cannot be brought to one scale. -/
theorem floorToIncrement_eq_none {d increment : ExactDecimal} (hd : 0 ≤ d.units)
    (hincrement : 0 < increment.units) (hnone : d.floorToIncrement increment = none) :
    d.alignedUnits increment = none := by
  cases haligned : d.alignedUnits increment with
  | none => rfl
  | some aligned =>
    obtain ⟨valueUnits, incrementUnits, scale⟩ := aligned
    obtain ⟨-, hvalue, hstep, hfits, -⟩ := alignedUnits_eq_some haligned
    have hpow : (0 : ℚ) < 10 ^ scale := by positivity
    have hvalueUnits : 0 ≤ valueUnits := by
      have hnonneg := d.value_nonneg_iff.mpr hd
      rwa [hvalue, le_div_iff₀ hpow, zero_mul, Int.cast_nonneg_iff] at hnonneg
    have hincrementUnits : 0 < incrementUnits := by
      have hpos := increment.value_pos_iff.mpr hincrement
      rwa [hstep, div_pos_iff_of_pos_right hpow, Int.cast_pos] at hpos
    have hquotient := Int.ediv_nonneg hvalueUnits hincrementUnits.le
    have hlow : 0 ≤ valueUnits / incrementUnits * incrementUnits :=
      mul_nonneg hquotient hincrementUnits.le
    have hhigh := Int.ediv_mul_le valueUnits hincrementUnits.ne'
    have hproduct : checkedMul (valueUnits / incrementUnits) incrementUnits =
        some (valueUnits / incrementUnits * incrementUnits) := by
      rw [fits, decide_eq_true_eq] at hfits
      rw [checkedMul, fits]
      exact if_pos (by rw [decide_eq_true_eq]; omega)
    rw [floorToIncrement, if_neg (by omega), haligned] at hnone
    simp [hproduct] at hnone

theorem checkedProduct_eq_some {left right product : ExactDecimal}
    (hproduct : left.checkedProduct right = some product) :
    product.value = left.value * right.value := by
  obtain ⟨units, hunits, rfl⟩ := Option.map_eq_some_iff.mp hproduct
  obtain ⟨rfl, -⟩ := checkedMul_eq_some hunits
  rw [value_normalized, value, value, pow_add]
  push_cast
  field_simp

end Bongus.Num.ExactDecimal

namespace Bongus.Engine.SymbolFilters

open Lib.Dictionary Lib.Documents Lib.Grids Num ExactDecimal

/-! ### What the document says -/

/-- The filter of a symbol of one of some types. -/
def filterOf (entry : Json) (kinds : List String) : Option Json :=
  ((filtersOf entry).getD []).find? fun filter ↦ (filterType filter).any (· ∈ kinds)

/-- The number that the text of a field denotes. -/
def numberOf (node : Option Json) : Option ℚ :=
  ((node.bind asStr).bind fun raw ↦ (fromStr raw).toOption).map value

/-- The number of a field, unless it is zero or absent. -/
def positiveNumber (filter : Json) (key : String) : Option ℚ :=
  (numberOf (field filter key)).filter (0 < ·)

/-- The number is a multiple of the step of the filter. -/
def OnGridOf (filter : Json) (x : ℚ) : Prop :=
  ∀ step ∈ positiveNumber filter "stepSize", Multiple step x

def WithinBoundsOf (filter : Json) (x : ℚ) : Prop :=
  (∀ minimum ∈ positiveNumber filter "minQty", minimum ≤ x) ∧
    ∀ maximum ∈ positiveNumber filter "maxQty", x ≤ maximum

/-- A flag of a filter is set unless the document says otherwise. -/
def flag (filter : Json) (key : String) : Prop := field filter key ≠ some (.bool false)

/-- The notional is within the bounds that apply to market orders. -/
def NotionalAllowedBy (filter : Json) (notional : ℚ) : Prop :=
  (flag filter (if filterType filter = some "NOTIONAL" then "applyMinToMarket"
      else "applyToMarket") →
    ∀ minimum ∈ numberOf ((field filter "minNotional").or (field filter "notional")),
      minimum ≤ notional) ∧
  (filterType filter = some "NOTIONAL" → flag filter "applyMaxToMarket" →
    ∀ maximum ∈ positiveNumber filter "maxNotional", notional ≤ maximum)

/-- The number is a multiple of the steps of both lot filters. -/
def OnGrid (entry : Json) (x : ℚ) : Prop :=
  (∀ lot ∈ filterOf entry ["LOT_SIZE"], OnGridOf lot x) ∧
    ∀ market ∈ filterOf entry ["MARKET_LOT_SIZE"], OnGridOf market x

/-- The quantity is within the bounds of both lot filters, and its notional within those of the
notional filter. -/
structure Conforms (entry : Json) (price x : ℚ) : Prop where
  lot : ∀ lot ∈ filterOf entry ["LOT_SIZE"], WithinBoundsOf lot x
  market : ∀ market ∈ filterOf entry ["MARKET_LOT_SIZE"], WithinBoundsOf market x
  notional : ∀ notional ∈ filterOf entry ["NOTIONAL", "MIN_NOTIONAL"],
    NotionalAllowedBy notional (x * price)

/-! ### Reading fields -/

theorem positiveField_eq_some {filter : Json} {key : String} {found : Option ExactDecimal}
    (hfield : positiveField filter key = some found) :
    found.map value = positiveNumber filter key := by
  obtain ⟨read, hread, rfl⟩ := Option.map_eq_some_iff.mp hfield
  rw [positiveNumber, numberOf]
  rw [decimalField] at hread
  cases hnode : field filter key with
  | none =>
    rw [hnode] at hread
    cases hread
    rfl
  | some node =>
    rw [hnode] at hread
    simp only [Option.bind_eq_bind, Option.bind_eq_some_iff] at hread
    obtain ⟨raw, hraw, d, hd, hcheck⟩ := hread
    split at hcheck
    · cases hcheck
    cases hcheck
    have hpositive : d.isPositive = decide (0 < d.value) := by
      rw [isPositive, decide_eq_decide, value_pos_iff]
    rw [Option.bind_some, hraw, Option.bind_some, hd, Option.map_some, Option.filter_some,
      Option.filter_some, hpositive]
    split_ifs
    · rfl
    · rfl

/-- What is read of a field that may be absent, against the document. -/
theorem forall_positiveNumber {filter : Json} {key : String} {found : Option ExactDecimal}
    (hfield : positiveField filter key = some found) (good : ℚ → Prop) :
    (∀ number ∈ positiveNumber filter key, good number) ↔
      ∀ d ∈ found, good d.value := by
  rw [← positiveField_eq_some hfield]
  simp

theorem boolField_eq_some {filter : Json} {key : String} {found : Bool}
    (hfield : boolField filter key true = some found) : found = true ↔ flag filter key := by
  rw [boolField] at hfield
  rw [flag]
  cases hnode : field filter key with
  | none =>
    rw [hnode] at hfield
    cases hfield
    simp
  | some node =>
    rw [hnode] at hfield
    cases node with
    | bool value =>
      cases hfield
      cases found <;> simp
    | _ => cases hfield

/-! ### Filters that are seen once -/

/-- A filter that is chosen is read into a place that was empty, and any other leaves the place. -/
def Added {α : Type} (before after : Option α) (chosen : Bool) (read : Option α) : Prop :=
  if chosen then before = none ∧ after = read ∧ read.isSome else after = before

theorem once_eq_some {α : Type} {seen read : Option α} {found : α}
    (honce : once seen read = some found) : seen = none ∧ read = some found := by
  rw [once] at honce
  split at honce
  · cases honce
  · rename_i hseen
    exact ⟨by simpa using hseen, honce⟩

/-- After all filters a place has what was read of the first one that is chosen. -/
theorem foldlM_added {α : Type} (place : FilterState → Option α) (chosen : Json → Bool)
    (read : Json → Option α)
    (hstep : ∀ state next filter, readFilter state filter = some next →
      Added (place state) (place next) (chosen filter) (read filter))
    {filters : List Json} {state final : FilterState}
    (hfold : filters.foldlM readFilter state = some final) :
    place final = (place state).or ((filters.find? chosen).bind read) ∧
      ∀ filter ∈ filters.find? chosen, (read filter).isSome := by
  induction filters generalizing state with
  | nil =>
    cases hfold
    simp
  | cons filter rest ih =>
    rw [List.foldlM_cons] at hfold
    obtain ⟨next, hnext, hrest⟩ := Option.bind_eq_some_iff.mp hfold
    have hadded := hstep state next filter hnext
    obtain ⟨hlast, hall⟩ := ih hrest
    rw [hlast, List.find?_cons]
    cases hchosen : chosen filter with
    | true =>
      rw [Added, hchosen, if_pos rfl] at hadded
      obtain ⟨hbefore, hafter, hread⟩ := hadded
      obtain ⟨found, hfound⟩ := Option.isSome_iff_exists.mp hread
      rw [hbefore, hafter, hfound]
      simp [hfound]
    | false =>
      rw [Added, hchosen, if_neg Bool.false_ne_true] at hadded
      rw [hadded]
      exact ⟨rfl, hall⟩

/-- A filter is read into the place of its type. -/
theorem readFilter_added {state next : FilterState} {filter : Json}
    (hread : readFilter state filter = some next) :
    Added state.lot next.lot ((filterType filter).any (· ∈ ["LOT_SIZE"])) (readLotSize filter) ∧
      Added state.marketLot next.marketLot ((filterType filter).any (· ∈ ["MARKET_LOT_SIZE"]))
        (readMarketLotSize filter) ∧
      Added state.notional next.notional
        ((filterType filter).any (· ∈ ["NOTIONAL", "MIN_NOTIONAL"])) (readNotional filter) := by
  obtain ⟨kind, hkind, hnext⟩ := Option.bind_eq_some_iff.mp hread
  rw [hkind]
  simp only [Option.bind_eq_bind] at hnext
  split_ifs at hnext with hprice hlot hmarket hnotional
  · obtain ⟨price, -, hsome⟩ := Option.bind_eq_some_iff.mp hnext
    cases hsome
    subst hprice
    simp [Added]
  · obtain ⟨lot, honce, hsome⟩ := Option.bind_eq_some_iff.mp hnext
    obtain ⟨hseen, hlotRead⟩ := once_eq_some honce
    cases hsome
    subst hlot
    simp [Added, hseen, hlotRead]
  · obtain ⟨marketLot, honce, hsome⟩ := Option.bind_eq_some_iff.mp hnext
    obtain ⟨hseen, hmarketRead⟩ := once_eq_some honce
    cases hsome
    subst hmarket
    simp [Added, hseen, hmarketRead]
  · obtain ⟨notional, honce, hsome⟩ := Option.bind_eq_some_iff.mp hnext
    obtain ⟨hseen, hnotionalRead⟩ := once_eq_some honce
    cases hsome
    simp [Added, hseen, hnotionalRead, hlot, hmarket, hnotional]
  · cases hnext
    obtain ⟨hfirst, hsecond⟩ := not_or.mp hnotional
    simp [Added, hlot, hmarket, hfirst, hsecond]

/-- What the filters of a symbol were read from: its lot filter, its filter for market orders if it
has one, and its notional filter. -/
structure ReadFrom (entry : Json) (lot : LotFilter) (marketLot : LotFilter)
    (notional : NotionalFilter) : Prop where
  lot : ∃ filter, filterOf entry ["LOT_SIZE"] = some filter ∧ readLotSize filter = some lot
  market : (filterOf entry ["MARKET_LOT_SIZE"] = none ∧ marketLot = {}) ∨
    ∃ filter, filterOf entry ["MARKET_LOT_SIZE"] = some filter ∧
      readMarketLotSize filter = some marketLot
  notional : ∃ filter, filterOf entry ["NOTIONAL", "MIN_NOTIONAL"] = some filter ∧
    readNotional filter = some notional

theorem parseSymbol_eq_some {entry : Json} {filters : ParsedSymbolFilters}
    (hparse : parseSymbol entry = some filters) :
    ∃ price lot stepSize minQty maxQty marketLot notional,
      ReadFrom entry lot marketLot notional ∧ lot.stepSize = some stepSize ∧
        lot.minQty = some minQty ∧ lot.maxQty = some maxQty ∧
        mergeFilters price minQty stepSize maxQty marketLot notional = some filters := by
  rw [parseSymbol] at hparse
  split at hparse
  · cases hparse
  simp only [Option.bind_eq_bind, Option.bind_eq_some_iff] at hparse
  obtain ⟨items, hitems, state, hfold, price, -, lot, hlot, stepSize, hstep, minQty, hmin, maxQty,
    hmax, notional, hnotional, hmerge⟩ := hparse
  obtain ⟨hlotRead, -⟩ := foldlM_added FilterState.lot _ readLotSize
    (fun _ _ _ hread ↦ (readFilter_added hread).1) hfold
  obtain ⟨hmarketRead, hmarketSome⟩ := foldlM_added FilterState.marketLot _ readMarketLotSize
    (fun _ _ _ hread ↦ (readFilter_added hread).2.1) hfold
  obtain ⟨hnotionalRead, -⟩ := foldlM_added FilterState.notional _ readNotional
    (fun _ _ _ hread ↦ (readFilter_added hread).2.2) hfold
  refine ⟨price, lot, stepSize, minQty, maxQty, state.marketLot.getD {}, notional, ⟨?_, ?_, ?_⟩,
    hstep, hmin, hmax, hmerge⟩
  · rw [hlot, Option.none_or] at hlotRead
    obtain ⟨filter, hfound, hread⟩ := Option.bind_eq_some_iff.mp hlotRead.symm
    exact ⟨filter, by rw [filterOf, hitems]; exact hfound, hread⟩
  · rw [filterOf, hitems, Option.getD_some, hmarketRead, Option.none_or]
    cases hfound : items.find? fun filter ↦
        (filterType filter).any (· ∈ ["MARKET_LOT_SIZE"]) with
    | none => exact Or.inl ⟨rfl, rfl⟩
    | some filter =>
      obtain ⟨marketLot, hread⟩ := Option.isSome_iff_exists.mp (hmarketSome filter hfound)
      exact Or.inr ⟨filter, rfl, by rw [Option.bind_some, hread, Option.getD_some]⟩
  · rw [hnotional, Option.none_or] at hnotionalRead
    obtain ⟨filter, hfound, hread⟩ := Option.bind_eq_some_iff.mp hnotionalRead.symm
    exact ⟨filter, by rw [filterOf, hitems]; exact hfound, hread⟩

/-! ### The filters against the document -/

theorem positiveField_mem {filter : Json} {key : String} {d : ExactDecimal}
    (hfield : positiveField filter key = some (some d)) : Canonical d ∧ 0 < d.value := by
  obtain ⟨read, hread, hfilter⟩ := Option.map_eq_some_iff.mp hfield
  obtain ⟨rfl, hpositive⟩ := Option.filter_eq_some_iff.mp hfilter
  rw [isPositive, decide_eq_true_eq, gt_iff_lt, ← value_pos_iff] at hpositive
  refine ⟨?_, hpositive⟩
  rw [decimalField] at hread
  split at hread
  · cases hread
  · simp only [Option.bind_eq_bind, Option.bind_eq_some_iff] at hread
    obtain ⟨raw, -, value, hvalue, hcheck⟩ := hread
    split at hcheck
    · cases hcheck
    cases hcheck
    exact canonical_of_fromStr (Lib.Fallible.toOption_eq_some.mp hvalue)

section Lot

variable {filter : Json} {lot : LotFilter} (hread : readMarketLotSize filter = some lot)

include hread

theorem readMarketLotSize_eq_some :
    positiveField filter "minQty" = some lot.minQty ∧
      positiveField filter "stepSize" = some lot.stepSize ∧
      positiveField filter "maxQty" = some lot.maxQty := by
  simp only [readMarketLotSize, Option.bind_eq_bind, Option.bind_eq_some_iff, Option.pure_def,
    Option.some.injEq] at hread
  obtain ⟨minQty, hmin, stepSize, hstep, maxQty, hmax, rfl⟩ := hread
  exact ⟨hmin, hstep, hmax⟩

theorem onGridOf_iff (x : ℚ) :
    OnGridOf filter x ↔ ∀ step ∈ lot.stepSize, Multiple step.value x :=
  forall_positiveNumber (readMarketLotSize_eq_some hread).2.1 fun step ↦ Multiple step x

theorem withinBoundsOf_iff (x : ℚ) :
    WithinBoundsOf filter x ↔ (∀ minimum ∈ lot.minQty, minimum.value ≤ x) ∧
      ∀ maximum ∈ lot.maxQty, x ≤ maximum.value :=
  and_congr (forall_positiveNumber (readMarketLotSize_eq_some hread).1 (· ≤ x))
    (forall_positiveNumber (readMarketLotSize_eq_some hread).2.2 (x ≤ ·))

end Lot

theorem readLotSize_eq_some {filter : Json} {lot : LotFilter}
    (hread : readLotSize filter = some lot) : readMarketLotSize filter = some lot :=
  (Option.filter_eq_some_iff.mp hread).1

theorem notionalAllowedBy_iff {filter : Json} {found : NotionalFilter}
    (hread : readNotional filter = some found) (notional : ℚ) :
    NotionalAllowedBy filter notional ↔
      (found.minApplyToMarket = true → found.minNotional.value ≤ notional) ∧
      (found.maxApplyToMarket = true → ∀ maximum ∈ found.maxNotional,
        notional ≤ maximum.value) := by
  rw [readNotional] at hread
  obtain ⟨minNotional, hminimum, hrest⟩ := Option.bind_eq_some_iff.mp hread
  have hnumber : numberOf ((field filter "minNotional").or (field filter "notional")) =
      some minNotional.value := by
    rw [numberOf, (Option.filter_eq_some_iff.mp hminimum).1]
    rfl
  rw [NotionalAllowedBy, hnumber]
  by_cases hkind : filterType filter = some "NOTIONAL"
  · rw [if_pos hkind] at hrest ⊢
    simp only [Option.bind_eq_bind, Option.bind_eq_some_iff, Option.pure_def,
      Option.some.injEq] at hrest
    obtain ⟨maxNotional, hmaximum, minApply, hmin, maxApply, hmax, rfl⟩ := hrest
    rw [← boolField_eq_some hmin, ← boolField_eq_some hmax,
      forall_positiveNumber hmaximum (notional ≤ ·)]
    simp [hkind]
  · rw [if_neg hkind] at hrest ⊢
    simp only [Option.bind_eq_bind, Option.bind_eq_some_iff, Option.pure_def,
      Option.some.injEq] at hrest
    obtain ⟨minApply, hmin, rfl⟩ := hrest
    rw [← boolField_eq_some hmin]
    simp [hkind]

/-- The notional is within the bounds of the filters that apply to market orders. -/
def WithinNotional (filters : ParsedSymbolFilters) (notional : ℚ) : Prop :=
  (filters.minNotionalApplyToMarket = true → filters.minNotional.value ≤ notional) ∧
    (filters.maxNotionalApplyToMarket = true → ∀ maximum ∈ filters.maxNotional,
      notional ≤ maximum.value)

instance (filters : ParsedSymbolFilters) (notional : ℚ) :
    Decidable (WithinNotional filters notional) :=
  inferInstanceAs (Decidable (_ ∧ _))

/-- What the filters of a symbol say of market orders is what its entry says. -/
structure Describes (entry : Json) (filters : ParsedSymbolFilters) : Prop where
  lot : ∃ lot ∈ filterOf entry ["LOT_SIZE"], (positiveNumber lot "stepSize").isSome
  step_pos : 0 < filters.marketStepSize.value
  step_scale : filters.marketStepSize.scale ≤ maxParsedScale
  grid : ∀ x, OnGrid entry x ↔ Multiple filters.marketStepSize.value x
  conforms : ∀ price x, Conforms entry price x ↔
    (filters.marketMinQty.value ≤ x ∧ x ≤ filters.marketMaxQty.value) ∧
      WithinNotional filters (x * price)

section Merge

variable {entry : Json} {lot marketLot : LotFilter} {notional : NotionalFilter}
  (hfrom : ReadFrom entry lot marketLot notional)

include hfrom

theorem ReadFrom.onGrid_iff (x : ℚ) :
    OnGrid entry x ↔ (∀ step ∈ lot.stepSize, Multiple step.value x) ∧
      ∀ step ∈ marketLot.stepSize, Multiple step.value x := by
  obtain ⟨filter, hfilter, hread⟩ := hfrom.lot
  rw [OnGrid, hfilter, ← onGridOf_iff (readLotSize_eq_some hread)]
  rcases hfrom.market with ⟨hnone, rfl⟩ | ⟨market, hmarket, hmarketRead⟩
  · rw [hnone]
    simp
  · rw [hmarket, ← onGridOf_iff hmarketRead]
    simp

theorem ReadFrom.conforms_bounds_iff (price x : ℚ) :
    Conforms entry price x ↔
      ((∀ minimum ∈ lot.minQty, minimum.value ≤ x) ∧ ∀ maximum ∈ lot.maxQty, x ≤ maximum.value) ∧
      ((∀ minimum ∈ marketLot.minQty, minimum.value ≤ x) ∧
        ∀ maximum ∈ marketLot.maxQty, x ≤ maximum.value) ∧
      (notional.minApplyToMarket = true → notional.minNotional.value ≤ x * price) ∧
      (notional.maxApplyToMarket = true → ∀ maximum ∈ notional.maxNotional,
        x * price ≤ maximum.value) := by
  obtain ⟨filter, hfilter, hread⟩ := hfrom.lot
  obtain ⟨notionalFilter, hnotional, hnotionalRead⟩ := hfrom.notional
  have hparts : Conforms entry price x ↔
      (∀ lot ∈ filterOf entry ["LOT_SIZE"], WithinBoundsOf lot x) ∧
      (∀ market ∈ filterOf entry ["MARKET_LOT_SIZE"], WithinBoundsOf market x) ∧
      ∀ notional ∈ filterOf entry ["NOTIONAL", "MIN_NOTIONAL"],
        NotionalAllowedBy notional (x * price) :=
    ⟨fun hall ↦ ⟨hall.lot, hall.market, hall.notional⟩, fun hall ↦ ⟨hall.1, hall.2.1, hall.2.2⟩⟩
  rw [hparts, hfilter, hnotional, ← withinBoundsOf_iff (readLotSize_eq_some hread),
    ← notionalAllowedBy_iff hnotionalRead]
  rcases hfrom.market with ⟨hnone, rfl⟩ | ⟨market, hmarket, hmarketRead⟩
  · rw [hnone]
    simp
  · rw [hmarket, ← withinBoundsOf_iff hmarketRead]
    simp

end Merge

/-- The bound that is absent adds nothing to the other one. -/
theorem max_value_le_iff {first : Option ExactDecimal} {second : ExactDecimal} {x : ℚ} :
    ((first.getD second).max second).value ≤ x ↔
      (∀ d ∈ first, d.value ≤ x) ∧ second.value ≤ x := by
  cases first with
  | none => simp [value_max]
  | some d => simp [value_max]

theorem le_min_value_iff {first : Option ExactDecimal} {second : ExactDecimal} {x : ℚ} :
    x ≤ ((first.getD second).min second).value ↔
      (∀ d ∈ first, x ≤ d.value) ∧ x ≤ second.value := by
  cases first with
  | none => simp [value_min]
  | some d => simp [value_min]

theorem parseSymbol_describes {entry : Json} {filters : ParsedSymbolFilters}
    (hparse : parseSymbol entry = some filters) : Describes entry filters := by
  obtain ⟨price, lot, stepSize, minQty, maxQty, marketLot, notional, hfrom, hstep, hmin, hmax,
    hmerge⟩ := parseSymbol_eq_some hparse
  obtain ⟨filter, hfilter, hread⟩ := hfrom.lot
  obtain ⟨-, hstepField, -⟩ := readMarketLotSize_eq_some (readLotSize_eq_some hread)
  rw [hstep] at hstepField
  obtain ⟨hcanonical, hpositive⟩ := positiveField_mem hstepField
  simp only [mergeFilters, Option.bind_eq_bind, Option.bind_eq_some_iff] at hmerge
  obtain ⟨marketStepSize, hmarketStep, hmerge⟩ := hmerge
  split at hmerge
  · cases hmerge
  cases hmerge
  have hstepFacts : 0 < marketStepSize.value ∧ marketStepSize.scale ≤ maxParsedScale ∧
      ∀ x, OnGrid entry x ↔ Multiple marketStepSize.value x := by
    simp only [hfrom.onGrid_iff, hstep]
    cases hmarket : marketLot.stepSize with
    | none =>
      rw [hmarket] at hmarketStep
      cases hmarketStep
      exact ⟨hpositive, hcanonical.scale_le, fun x ↦ by simp⟩
    | some market =>
      rw [hmarket] at hmarketStep
      obtain ⟨hcommon, hgrid⟩ := checkedCommonIncrement_eq_some hmarketStep
      refine ⟨hcommon, ?_, fun x ↦ by simp [hgrid]⟩
      rcases hfrom.market with ⟨-, rfl⟩ | ⟨marketFilter, -, hmarketRead⟩
      · cases hmarket
      · obtain ⟨-, hmarketField, -⟩ := readMarketLotSize_eq_some hmarketRead
        rw [hmarket] at hmarketField
        exact scale_checkedCommonIncrement hmarketStep hcanonical.scale_le
          (positiveField_mem hmarketField).1.scale_le
  refine ⟨⟨filter, hfilter, ?_⟩, hstepFacts.1, hstepFacts.2.1, hstepFacts.2.2, fun price x ↦ ?_⟩
  · rw [← positiveField_eq_some hstepField]
    rfl
  · rw [hfrom.conforms_bounds_iff, hmin, hmax, max_value_le_iff, le_min_value_iff, WithinNotional]
    simp only [Option.mem_def, Option.some.injEq, forall_eq']
    tauto

/-! ### Kept symbols -/

/-- The entry of a symbol that is kept: the last one that can be read. -/
def keptEntry (document : Json) (symbol : String) : Option Json :=
  (symbolsOf document).reverse.find? fun entry ↦
    symbolName entry = symbol ∧ (parseSymbol entry).isSome

theorem lookup_parseSymbolFilters (document : Json) (symbol : String) :
    (parseSymbolFilters document).lookup symbol =
      (keptEntry document symbol).bind parseSymbol := by
  rw [parseSymbolFilters, keptEntry]
  induction symbolsOf document using List.reverseRecOn with
  | nil => rfl
  | append_singleton before entry ih =>
    rw [List.foldl_append, List.reverse_append, List.reverse_singleton, List.singleton_append,
      List.find?_cons, List.foldl_cons, List.foldl_nil]
    cases hparse : parseSymbol entry with
    | none => simp [ih]
    | some filters =>
      dsimp only
      rw [lookup_assign, ih]
      by_cases hsymbol : symbol = symbolName entry
      · simp [hsymbol, hparse]
      · have hother : ¬ symbolName entry = symbol := fun h ↦ hsymbol h.symm
        simp [hsymbol, hother]

theorem lookup_getExchangeInfo {documents : MarketType → Json} {symbol : String}
    {info : SymbolInfo} (hinfo : (getExchangeInfo documents).lookup symbol = some info)
    (market : MarketType) :
    (parseSymbolFilters (documents market)).lookup symbol = some (info.filters market) := by
  have hboth : (getExchangeInfo documents).lookup symbol =
      ((parseSymbolFilters (documents .spot)).lookup symbol).bind fun spot ↦
        ((parseSymbolFilters (documents .perp)).lookup symbol).map fun futures ↦
          ⟨spot, futures⟩ := by
    rw [getExchangeInfo]
    generalize parseSymbolFilters (documents .perp) = futures
    induction parseSymbolFilters (documents .spot) with
    | nil => rfl
    | cons entry rest ih =>
      obtain ⟨name, spot⟩ := entry
      rw [lookup_cons_ite]
      cases hfutures : futures.lookup name with
      | none =>
        rw [List.filterMap_cons_none (by simp [hfutures]), ih]
        split_ifs with hname
        · dsimp only at hname
          rw [hname, hfutures]
          simp
        · rfl
      | some found =>
        rw [List.filterMap_cons_some (b := (name, ⟨spot, found⟩)) (by simp [hfutures]),
          lookup_cons_ite, ih]
        split_ifs with hname
        · dsimp only at hname
          rw [hname, hfutures]
          rfl
        · rfl
  rw [hboth] at hinfo
  obtain ⟨spot, hspot, hrest⟩ := Option.bind_eq_some_iff.mp hinfo
  obtain ⟨futures, hfutures, rfl⟩ := Option.map_eq_some_iff.mp hrest
  cases market with
  | spot => exact hspot
  | perp => exact hfutures

/-! ### The text of a quantity -/

/-- A number leaves 128 bits: the request at the scale of the step, or the product of what was
rounded down with the price. -/
def Overflows (quantity price step : ExactDecimal) : Prop :=
  quantity.alignedUnits step = none ∨ ∃ floor, quantity.floorToIncrement step = some floor ∧
    fits 128 (floor.units * price.units) = false

theorem notional_refused_iff (filters : ParsedSymbolFilters) (notional : ExactDecimal) :
    ((if filters.minNotionalApplyToMarket then some filters.minNotional else none).any
        (fun minimum ↦ notional.cmp minimum = .lt) = true ∨
      (if filters.maxNotionalApplyToMarket then filters.maxNotional else none).any
        (fun maximum ↦ notional.cmp maximum = .gt) = true) ↔
      ¬ WithinNotional filters notional.value := by
  rw [WithinNotional, not_and_or]
  refine or_congr ?_ ?_
  · cases filters.minNotionalApplyToMarket with
    | true => simp [cmp_eq_lt]
    | false => simp
  · cases filters.maxNotionalApplyToMarket with
    | true =>
      cases filters.maxNotional with
      | none => simp
      | some maximum => simp [cmp_eq_gt]
    | false => simp

theorem exactLiveValue_of_pos {d : ExactDecimal} (hd : 0 < d.value) :
    exactLiveValue d = some d := by
  have hpositive : d.isPositive = true := by
    rw [isPositive, decide_eq_true_eq, gt_iff_lt, ← value_pos_iff]
    exact hd
  rw [exactLiveValue, if_pos hpositive]

section Text

variable {exchangeInfo : List (String × SymbolInfo)} {symbol : String} {info : SymbolInfo}
  {market : MarketType} {quantity price floor : ExactDecimal}
  (hinfo : exchangeInfo.lookup symbol = some info) (hquantity : 0 < quantity.value)

include hinfo

theorem symbolInfo_of_lookup : symbolInfo exchangeInfo symbol = info := by
  rw [symbolInfo, hinfo, Option.getD_some]

include hquantity

theorem formatQuantityForMarket_eq :
    formatQuantityForMarket exchangeInfo symbol market quantity true =
      (quantity.floorToIncrement (info.filters market).marketStepSize).bind fun floor ↦
        if floor.cmp (info.filters market).marketMinQty = .lt ∨
            floor.cmp (info.filters market).marketMaxQty = .gt then none
        else floor.formatToScale (info.filters market).marketStepSize.scale := by
  simp only [formatQuantityForMarket, symbolInfo_of_lookup hinfo, if_true, roundDownToStep,
    exactLiveValue_of_pos hquantity, Option.bind_eq_bind, Option.bind_some]

/-- The text of a request that was rounded down: it is refused if it is not within the bounds. -/
theorem formatMarketQuantityWithPrice_of_some {text : String} (hprice : 0 < price.value)
    (hfloor : quantity.floorToIncrement (info.filters market).marketStepSize = some floor)
    (htext : floor.formatToScale (info.filters market).marketStepSize.scale = some text)
    (hread : fromStr text = .ok floor) :
    formatMarketQuantityWithPrice exchangeInfo symbol market quantity price =
      if floor.cmp (info.filters market).marketMinQty = .lt ∨
          floor.cmp (info.filters market).marketMaxQty = .gt then none
      else (floor.checkedProduct price).bind fun notional ↦
        if ¬ WithinNotional (info.filters market) notional.value then none else some text := by
  have hreadOption : (fromStr text).toOption = some floor :=
    Lib.Fallible.toOption_eq_some.mpr hread
  rw [formatMarketQuantityWithPrice, formatQuantityForMarket_eq hinfo hquantity, hfloor,
    symbolInfo_of_lookup hinfo, Option.bind_some, exactLiveValue_of_pos hprice]
  split_ifs with hbounds
  · rfl
  · simp only [htext, hreadOption, Option.bind_eq_bind, Option.bind_some, notional_refused_iff]

end Text

/-- The text of a quantity for a market order denotes the greatest number on the common grid of the
document up to the request, and conforms to the document. There is none only if no number of the
grid conforms that is less than a step below the request, or if a number leaves 128 bits. -/
theorem market_quantity_conforms {documents : MarketType → Json} {symbol : String}
    {info : SymbolInfo} (hinfo : (getExchangeInfo documents).lookup symbol = some info)
    (market : MarketType) {quantity price : ExactDecimal} (hquantity : 0 < quantity.value)
    (hprice : 0 < price.value) :
    ∃ entry, keptEntry (documents market) symbol = some entry ∧
      (∃ lot ∈ filterOf entry ["LOT_SIZE"], (positiveNumber lot "stepSize").isSome) ∧
      ∃ step, IsLeast {x | 0 < x ∧ OnGrid entry x} step ∧
        (∀ text, formatMarketQuantityWithPrice (getExchangeInfo documents) symbol market quantity
            price = some text →
          ∃ d, fromStr text = .ok d ∧
            IsGreatest {x | OnGrid entry x ∧ x ≤ quantity.value} d.value ∧
            Conforms entry price.value d.value) ∧
        (formatMarketQuantityWithPrice (getExchangeInfo documents) symbol market quantity price =
            none →
          (∀ x, OnGrid entry x → quantity.value - step < x → x ≤ quantity.value →
            ¬ Conforms entry price.value x) ∨
          Overflows quantity price (info.filters market).marketStepSize) := by
  have hlookup := lookup_getExchangeInfo hinfo market
  rw [lookup_parseSymbolFilters] at hlookup
  obtain ⟨entry, hentry, hparse⟩ := Option.bind_eq_some_iff.mp hlookup
  set filters := info.filters market
  have hdescribes := parseSymbol_describes hparse
  refine ⟨entry, hentry, hdescribes.lot, filters.marketStepSize.value, ?_, ?_⟩
  · simp only [hdescribes.grid]
    exact isLeast_step hdescribes.step_pos
  have hnever {text : String} : (none : Option String) ≠ some text := (Option.some_ne_none _).symm
  cases hfloor : quantity.floorToIncrement filters.marketStepSize with
  | none =>
    rw [formatMarketQuantityWithPrice, formatQuantityForMarket_eq hinfo hquantity, hfloor]
    refine ⟨fun _ hfound ↦ (hnever hfound).elim, fun _ ↦ Or.inr (Or.inl ?_)⟩
    exact floorToIncrement_eq_none (quantity.value_pos_iff.mp hquantity).le
      ((value_pos_iff _).mp hdescribes.step_pos) hfloor
  | some floor =>
    have hgreatest : IsGreatest {x | OnGrid entry x ∧ x ≤ quantity.value} floor.value := by
      simp only [hdescribes.grid]
      exact isGreatest_floorToIncrement hfloor
    -- the only number of the grid that is less than a step below the request
    have honly : ∀ x, OnGrid entry x → quantity.value - filters.marketStepSize.value < x →
        x ≤ quantity.value → x = floor.value := by
      intro x hx hclose hle
      have hbelow := hgreatest.2 ⟨hx, hle⟩
      have hfloorLe := hgreatest.1.2
      exact ((hdescribes.grid x).mp hx).eq_of_lt ((hdescribes.grid _).mp hgreatest.1.1) hbelow
        (by linarith)
    have hrefuses : ¬ Conforms entry price.value floor.value →
        ∀ x, OnGrid entry x → quantity.value - filters.marketStepSize.value < x →
          x ≤ quantity.value → ¬ Conforms entry price.value x := by
      intro hnot x hx hclose hle
      rw [honly x hx hclose hle]
      exact hnot
    obtain ⟨text, htext, hread⟩ := formatToScale_floor hdescribes.step_scale hfloor
    have hbounds : (floor.cmp filters.marketMinQty = .lt ∨ floor.cmp filters.marketMaxQty = .gt) ↔
        ¬ (filters.marketMinQty.value ≤ floor.value ∧
          floor.value ≤ filters.marketMaxQty.value) := by
      rw [cmp_eq_lt, cmp_eq_gt, not_and_or, not_le, not_le]
    have hconforms := hdescribes.conforms price.value floor.value
    rw [formatMarketQuantityWithPrice_of_some hinfo hquantity hprice hfloor htext hread]
    by_cases hout : floor.cmp filters.marketMinQty = .lt ∨ floor.cmp filters.marketMaxQty = .gt
    · rw [if_pos hout]
      refine ⟨fun _ hfound ↦ (hnever hfound).elim, fun _ ↦ Or.inl (hrefuses fun hall ↦ ?_)⟩
      exact hbounds.mp hout (hconforms.mp hall).1
    · have hwithin := not_not.mp fun hnot ↦ hout (hbounds.mpr hnot)
      rw [if_neg hout]
      cases hproduct : floor.checkedProduct price with
      | none =>
        refine ⟨fun _ hfound ↦ (hnever hfound).elim, fun _ ↦ Or.inr (Or.inr ⟨floor, hfloor, ?_⟩)⟩
        rw [checkedProduct, Option.map_eq_none_iff, checkedMul] at hproduct
        split at hproduct
        · cases hproduct
        · rename_i hfits
          exact Bool.eq_false_of_not_eq_true hfits
      | some notional =>
        rw [Option.bind_some, checkedProduct_eq_some hproduct]
        by_cases hallowed : WithinNotional filters (floor.value * price.value)
        · rw [if_neg (not_not.mpr hallowed)]
          refine ⟨fun found hfound ↦ ?_, fun hnone ↦ (hnever hnone.symm).elim⟩
          cases hfound
          exact ⟨floor, hread, hgreatest, hconforms.mpr ⟨hwithin, hallowed⟩⟩
        · rw [if_pos hallowed]
          refine ⟨fun _ hfound ↦ (hnever hfound).elim, fun _ ↦ Or.inl (hrefuses fun hall ↦ ?_)⟩
          exact hallowed (hconforms.mp hall).2

/-! ### Documents with one symbol -/

def lotFilter (kind minQty stepSize maxQty : String) : Json :=
  .dict [("filterType", .text kind), ("minQty", .text minQty), ("stepSize", .text stepSize),
    ("maxQty", .text maxQty)]

def bitcoinEntry (lot marketLot : Json) : Json :=
  .dict [("symbol", .text "BTCUSDT"), ("status", .text "TRADING"), ("filters", .list [
    .dict [("filterType", .text "PRICE_FILTER"), ("tickSize", .text "0.01")], lot, marketLot,
    .dict [("filterType", .text "NOTIONAL"), ("minNotional", .text "5")]])]

def bitcoinDocument (lot marketLot : Json) : Json :=
  .dict [("symbols", .list [bitcoinEntry lot marketLot])]

/-- The common step of 0.004 and 0.006 is 0.012, and 1.236 is the greatest multiple up to 1.24. -/
def unevenDocument : Json :=
  bitcoinDocument (lotFilter "LOT_SIZE" "0.004" "0.004" "100")
    (lotFilter "MARKET_LOT_SIZE" "0" "0.006" "50")

theorem market_quantity_conforms_bitcoin :
    formatMarketQuantityWithPrice (getExchangeInfo fun _ ↦ unevenDocument) "BTCUSDT" .spot
        ⟨124, 2⟩ ⟨100, 0⟩ = some "1.236" ∧
      ∃ entry, keptEntry unevenDocument "BTCUSDT" = some entry ∧
        ∃ d, fromStr "1.236" = .ok d ∧
          IsGreatest {x | OnGrid entry x ∧ x ≤ (⟨124, 2⟩ : ExactDecimal).value} d.value ∧
          Conforms entry (⟨100, 0⟩ : ExactDecimal).value d.value := by
  have htext : formatMarketQuantityWithPrice (getExchangeInfo fun _ ↦ unevenDocument) "BTCUSDT"
      .spot ⟨124, 2⟩ ⟨100, 0⟩ = some "1.236" := by decide +kernel
  have hsome : ((getExchangeInfo fun _ ↦ unevenDocument).lookup "BTCUSDT").isSome = true := by
    decide +kernel
  obtain ⟨info, hinfo⟩ := Option.isSome_iff_exists.mp hsome
  obtain ⟨entry, hentry, -, step, -, hconforms, -⟩ :=
    market_quantity_conforms hinfo .spot ((value_pos_iff ⟨124, 2⟩).mpr (by decide))
      ((value_pos_iff ⟨100, 0⟩).mpr (by decide))
  exact ⟨htext, entry, hentry, hconforms "1.236" htext⟩

/-- A greatest quantity of zero does not bound market orders. -/
def zeroMaximum : Json := lotFilter "MARKET_LOT_SIZE" "0" "0" "0"

/-- The greatest quantity is one step below a request of 1. -/
def stepBelow : Json := lotFilter "MARKET_LOT_SIZE" "0" "0" "0.999"

def fineLot : Json := lotFilter "LOT_SIZE" "0.001" "0.001" "100"

def coarseLot : Json := lotFilter "LOT_SIZE" "10" "10" "100"

/-- The documents of the two markets, where only the one for spot has the symbol. -/
def onlySpot : MarketType → Json
  | .spot => bitcoinDocument coarseLot zeroMaximum
  | .perp => .dict []

theorem isSome_parseSymbol_stepBelow :
    (parseSymbol (bitcoinEntry fineLot stepBelow)).isSome = true := by
  decide +kernel

theorem stepBelow_conforms :
    OnGrid (bitcoinEntry fineLot stepBelow) (1 - 1 / 1000) ∧
      Conforms (bitcoinEntry fineLot stepBelow) 100 (1 - 1 / 1000) := by
  have hdescribes := parseSymbol_describes (Option.some_get isSome_parseSymbol_stepBelow).symm
  have hstep : ((parseSymbol _).get isSome_parseSymbol_stepBelow).marketStepSize.value =
      1 / 1000 := by decide +kernel
  rw [hdescribes.grid, hdescribes.conforms, hstep]
  refine ⟨⟨999, by norm_num⟩, ?_⟩
  decide +kernel

/-- The bounds of a document are not all met: a greatest quantity of zero is no bound, the quantity
one step below the request is not tried, and a symbol that only one market has is not checked
against its document. -/
theorem market_quantity_departs :
    (formatMarketQuantityWithPrice (getExchangeInfo fun _ ↦ bitcoinDocument fineLot zeroMaximum)
        "BTCUSDT" .spot ⟨1, 0⟩ ⟨100, 0⟩ = some "1.000" ∧
      numberOf (field zeroMaximum "maxQty") = some 0) ∧
    (formatMarketQuantityWithPrice (getExchangeInfo fun _ ↦ bitcoinDocument fineLot stepBelow)
        "BTCUSDT" .spot ⟨1, 0⟩ ⟨100, 0⟩ = none ∧
      ¬ Overflows ⟨1, 0⟩ ⟨100, 0⟩ ⟨1, 3⟩ ∧
      OnGrid (bitcoinEntry fineLot stepBelow) (1 - 1 / 1000) ∧
      Conforms (bitcoinEntry fineLot stepBelow) 100 (1 - 1 / 1000)) ∧
    ((parseSymbolFilters (onlySpot .spot)).lookup "BTCUSDT").isSome ∧
      formatMarketQuantityWithPrice (getExchangeInfo onlySpot) "BTCUSDT" .spot ⟨1, 1⟩ ⟨1000, 0⟩ =
        some "0.1" ∧
      numberOf (field coarseLot "minQty") = some 10 := by
  refine ⟨by decide +kernel, ⟨by decide +kernel, ?_, stepBelow_conforms⟩, by decide +kernel,
    by decide +kernel, by decide +kernel⟩
  have hfloor : (⟨1, 0⟩ : ExactDecimal).floorToIncrement ⟨1, 3⟩ = some ⟨1, 0⟩ := by decide +kernel
  rintro (haligned | ⟨floor, hsome, hfits⟩)
  · revert haligned
    decide +kernel
  · rw [hfloor] at hsome
    cases hsome
    revert hfits
    decide +kernel

end Bongus.Engine.SymbolFilters
