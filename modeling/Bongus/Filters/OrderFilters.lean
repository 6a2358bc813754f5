import Bongus.Filters.Registry

/-!
# The order filters

`ExchangeFilterRegistry.validate_order` of `bongus/engine/exchange_filters.py`. An accepted order
conforms to the filters of the document its symbol was parsed from (`Conforms`) exactly if two gaps
do not matter (`Covered`): a market order with a market lot is checked against that grid only, and
a document that lists both notional filters is read without the old one (`conforms_iff`). Decimal
arithmetic and times are exact.
-/

set_option autoImplicit false
set_option relaxedAutoImplicit false

namespace Bongus.Filters

open Lib.Dictionary Lib.Documents Lib.Grids

/-- A reading of the clock. Neither a negative infinity nor a reading that is no number is finite
or has an age. -/
inductive Reading where
  | finite (seconds : ℚ)
  | infinite
  | undefined

structure Order where
  symbol : String
  market : Market
  side : String
  orderType : String
  quantity : Json
  price : Option Json
  referencePrice : Option Json
  checkedAt : Reading
  normalize : Bool

/-- The age is missing if it is infinite. -/
structure OrderFilterResult where
  accepted : Bool
  symbol : String
  market : Market
  side : String
  orderType : String
  quantity : Option ℚ
  price : Option ℚ
  notional : Option ℚ
  metadataAgeSeconds : Option ℚ
  reasons : List String
  normalized : Bool

section Validation

variable (language : Language)

/-! ### The checks -/

def parseOrderDecimal (value : Json) (fieldName : String) : Option ℚ × List String :=
  match number language value with
  | none => (none, [fieldName ++ "_invalid"])
  | some parsed =>
    if parsed ≤ 0 then (none, [fieldName ++ "_invalid"]) else (some parsed, [])

def parseOptional (value : Option Json) (fieldName : String) : Option ℚ × List String :=
  match value with
  | none => (none, [])
  | some value => parseOrderDecimal language value fieldName

def age (metadata : SymbolOrderMetadata) (checkedAt : Reading) : Option ℚ :=
  match checkedAt with
  | .finite seconds => some (max 0 (seconds - metadata.receivedAt))
  | .infinite => none
  | .undefined => some 0

def clockReasons (ttl : ℚ) (metadata : SymbolOrderMetadata) (checkedAt : Reading) : List String :=
  match checkedAt with
  | .finite seconds =>
    if seconds < metadata.receivedAt then ["metadata_clock_invalid"]
    else if ttl < max 0 (seconds - metadata.receivedAt) then ["metadata_stale"]
    else []
  | _ => ["metadata_clock_invalid"]

def quantityGrid (metadata : SymbolOrderMetadata) (orderType : String) : DecimalGrid :=
  if orderType = "MARKET" then metadata.marketLot.getD metadata.lot else metadata.lot

/-- The reasons that a grid has against a value. -/
def gridReasons (grid : DecimalGrid) (name misaligned : String) (value : ℚ) : List String :=
  (if value < grid.minimum then [name ++ "_below_minimum"] else []) ++
    (if grid.maximum < value then [name ++ "_above_maximum"] else []) ++
      if grid.aligned value then [] else [misaligned]

/-- The quantity of an order, rounded down if it is normalized. -/
def orderQuantity (metadata : SymbolOrderMetadata) (order : Order) : Option ℚ :=
  (parseOrderDecimal language order.quantity "quantity").1.map fun parsed ↦
    if order.normalize then (quantityGrid metadata (language.upper order.orderType)).floor parsed
    else parsed

/-- The price of an order. A limit price that is normalized is not made worse. -/
def orderPrice (metadata : SymbolOrderMetadata) (order : Order) : Option ℚ :=
  (parseOptional language order.price "price").1.map fun parsed ↦
    if language.upper order.orderType = "LIMIT" ∧ order.normalize = true then
      if language.upper order.side = "BUY" then metadata.price.floor parsed
      else metadata.price.ceil parsed
    else parsed

def notionalPrice (metadata : SymbolOrderMetadata) (order : Order) : Option ℚ :=
  if language.upper order.orderType = "LIMIT" then orderPrice language metadata order
  else (parseOptional language order.referencePrice "reference_price").1

def orderNotional (metadata : SymbolOrderMetadata) (order : Order) : Option ℚ := do
  return (← orderQuantity language metadata order) * (← notionalPrice language metadata order)

def quantityReasons (metadata : SymbolOrderMetadata) (order : Order) : List String :=
  match orderQuantity language metadata order with
  | none => []
  | some quantity => gridReasons (quantityGrid metadata (language.upper order.orderType))
      "quantity" "quantity_off_step" quantity

def priceReasons (metadata : SymbolOrderMetadata) (order : Order) : List String :=
  if language.upper order.orderType = "LIMIT" then
    match orderPrice language metadata order with
    | none => ["limit_price_missing"]
    | some price => gridReasons metadata.price "price" "price_off_tick" price
  else []

/-- A bound with a flag for market orders applies to an order of a type. -/
def applies (orderType : String) (toMarket : Bool) : Bool := orderType ≠ "MARKET" || toMarket

def notionalReasons (metadata : SymbolOrderMetadata) (order : Order) : List String :=
  let orderType := language.upper order.orderType
  let minimumApplies := applies orderType metadata.notional.applyMinToMarket
  let maximumApplies := applies orderType metadata.notional.applyMaxToMarket
  match orderNotional language metadata order with
  | some notional =>
    (if minimumApplies = true ∧ notional < metadata.notional.minimum then
      ["notional_below_minimum"] else []) ++
      if maximumApplies = true ∧ ∃ bound ∈ metadata.notional.maximum, bound < notional then
        ["notional_above_maximum"] else []
  | none =>
    if minimumApplies || (maximumApplies && metadata.notional.maximum.isSome) then
      ["notional_price_missing"]
    else []

def reasons (ttl : ℚ) (metadata : SymbolOrderMetadata) (order : Order) : List String :=
  clockReasons ttl metadata order.checkedAt ++
  (if metadata.tradable then [] else ["symbol_status:" ++ metadata.status]) ++
  (if language.upper order.side ∈ ["BUY", "SELL"] then [] else ["side_unsupported"]) ++
  (if language.upper order.orderType ∈ ["LIMIT", "MARKET"] then []
    else ["order_type_unsupported"]) ++
  (parseOrderDecimal language order.quantity "quantity").2 ++
  (parseOptional language order.price "price").2 ++
  (parseOptional language order.referencePrice "reference_price").2 ++
  quantityReasons language metadata order ++
  priceReasons language metadata order ++
  notionalReasons language metadata order

def validateOrder (registry : Registry) (ttl : ℚ) (order : Order) : OrderFilterResult :=
  let symbol := language.upper order.symbol
  let key : Key := ⟨order.market, symbol⟩
  match registry.metadata.lookup key with
  | none =>
    { accepted := false
      symbol := symbol
      market := order.market
      side := language.upper order.side
      orderType := language.upper order.orderType
      quantity := none
      price := none
      notional := none
      metadataAgeSeconds := none
      reasons := match registry.invalid.lookup key with
        | none | some [] => ["metadata_missing"]
        | some invalidReasons => invalidReasons
      normalized := order.normalize }
  | some metadata =>
    { accepted := (reasons language ttl metadata order).isEmpty
      symbol := symbol
      market := order.market
      side := language.upper order.side
      orderType := language.upper order.orderType
      quantity := orderQuantity language metadata order
      price := orderPrice language metadata order
      notional := orderNotional language metadata order
      metadataAgeSeconds := age metadata order.checkedAt
      reasons := (reasons language ttl metadata order).eraseDups
      normalized := order.normalize }

/-! ### What a document asks of an order -/

/-- A lot filter of a document and its numbers. -/
def Lot (filters : List (String × Filter)) (name : String) (least greatest step : ℚ) : Prop :=
  ∃ filter, filters.lookup name = some filter ∧
    number language (Json.get filter "minQty") = some least ∧
    number language (Json.get filter "maxQty") = some greatest ∧
    number language (Json.get filter "stepSize") = some step

/-- A quantity is a multiple of the step of the lot and, in a market order, of a positive step of
the market lot. -/
def OnSteps (filters : List (String × Filter)) (orderType : String) (quantity : ℚ) : Prop :=
  (∀ least greatest step, Lot language filters "LOT_SIZE" least greatest step →
    Multiple step quantity) ∧
  (orderType = "MARKET" → ∀ least greatest step,
    Lot language filters "MARKET_LOT_SIZE" least greatest step → 0 < step →
      Multiple step quantity)

structure QuantityConforms (filters : List (String × Filter)) (orderType : String)
    (normalize : Bool) (requested quantity : ℚ) : Prop where
  lot : ∀ least greatest step, Lot language filters "LOT_SIZE" least greatest step →
    least ≤ quantity ∧ quantity ≤ greatest
  marketLot : orderType = "MARKET" → ∀ least greatest step,
    Lot language filters "MARKET_LOT_SIZE" least greatest step →
      least ≤ quantity ∧ quantity ≤ greatest
  steps : OnSteps language filters orderType quantity
  atMost : quantity ≤ requested
  largest : normalize = true → ∀ other, OnSteps language filters orderType other →
    other ≤ requested → other ≤ quantity

structure PriceConforms (filters : List (String × Filter)) (side : String)
    (requested price : ℚ) : Prop where
  range : ∀ filter, filters.lookup "PRICE_FILTER" = some filter →
    ∀ least ∈ number language (Json.get filter "minPrice"),
    ∀ greatest ∈ number language (Json.get filter "maxPrice"), least ≤ price ∧ price ≤ greatest
  tick : ∀ filter, filters.lookup "PRICE_FILTER" = some filter →
    ∀ tick ∈ number language (Json.get filter "tickSize"), Multiple tick price
  buy : side = "BUY" → price ≤ requested
  sell : side = "SELL" → requested ≤ price

/-- The minimum of the new notional filter, if it applies. -/
def NewFloor (filters : List (String × Filter)) (orderType : String) (bound : ℚ) : Prop :=
  ∃ filter, filters.lookup "NOTIONAL" = some filter ∧
    number language (Json.get filter "minNotional") = some bound ∧
    applies orderType (readBool language (Json.get filter "applyMinToMarket") true) = true

/-- The maximum of the new notional filter, if it applies. -/
def NewCeiling (filters : List (String × Filter)) (orderType : String) (bound : ℚ) : Prop :=
  ∃ filter, filters.lookup "NOTIONAL" = some filter ∧ maximumOf language filter = some bound ∧
    applies orderType (readBool language (Json.get filter "applyMaxToMarket") true) = true

/-- The minimum of the old notional filter, if it applies. -/
def OldFloor (filters : List (String × Filter)) (orderType : String) (bound : ℚ) : Prop :=
  ∃ filter, filters.lookup "MIN_NOTIONAL" = some filter ∧
    number language (oldMinimum filter) = some bound ∧
    applies orderType (readBool language (Json.get filter "applyToMarket") true) = true

/-- The price that the notional of a result is reckoned with. -/
def priceUsed (order : Order) (result : OrderFilterResult) : Option ℚ :=
  if result.orderType = "LIMIT" then result.price
  else order.referencePrice.bind (number language)

/-- The product of the quantity and the price of a result is known and has a property. -/
def ProductMeets (order : Order) (result : OrderFilterResult) (property : ℚ → Prop) : Prop :=
  ∃ quantity price, result.quantity = some quantity ∧
    priceUsed language order result = some price ∧ property (quantity * price)

/-- A result conforms to the filters of a document. -/
structure Conforms (filters : List (String × Filter)) (order : Order)
    (result : OrderFilterResult) : Prop where
  quantity : ∃ requested quantity, number language order.quantity = some requested ∧
    result.quantity = some quantity ∧
    QuantityConforms language filters result.orderType order.normalize requested quantity
  price : result.orderType = "LIMIT" → ∃ requested price,
    order.price.bind (number language) = some requested ∧ result.price = some price ∧
    PriceConforms language filters result.side requested price
  newFloor : ∀ bound, NewFloor language filters result.orderType bound →
    ProductMeets language order result (bound ≤ ·)
  newCeiling : ∀ bound, NewCeiling language filters result.orderType bound →
    ProductMeets language order result (· ≤ bound)
  oldFloor : ∀ bound, OldFloor language filters result.orderType bound →
    ProductMeets language order result (bound ≤ ·)

/-- What the filters leave unchecked does not matter to an order: the quantity of a market order,
rounded to the market lot, is one of the lot, and where both notional filters are listed the
notional meets the old one. -/
structure Covered (filters : List (String × Filter)) (metadata : SymbolOrderMetadata)
    (order : Order) : Prop where
  lot : language.upper order.orderType = "MARKET" → ∀ grid ∈ metadata.marketLot,
    ∀ requested ∈ number language order.quantity,
      let quantity := if order.normalize then grid.floor requested else requested
      metadata.lot.minimum ≤ quantity ∧ quantity ≤ metadata.lot.maximum ∧
        Multiple metadata.lot.step quantity
  oldFloor : filters.lookup "NOTIONAL" ≠ none → ∀ bound,
    OldFloor language filters (language.upper order.orderType) bound →
      ∃ notional ∈ orderNotional language metadata order, bound ≤ notional

/-! ### Accepted orders -/

variable {language}

theorem DecimalGrid.aligned_iff (grid : DecimalGrid) (value : ℚ) :
    grid.aligned value = true ↔ 0 ≤ value ∧ Multiple grid.step value := by
  have hgreatest : IsGreatest {y | Multiple grid.step y ∧ y ≤ value} (grid.floor value) :=
    isGreatest_floor grid.step_pos value
  simp only [DecimalGrid.aligned, Bool.and_eq_true, decide_eq_true_eq]
  refine and_congr_right fun _ ↦ ⟨fun heq ↦ ?_, fun hmultiple ↦ ?_⟩
  · rw [← heq]
    exact hgreatest.1.1
  · exact le_antisymm hgreatest.1.2 (hgreatest.2 ⟨hmultiple, le_rfl⟩)

/-- A value on a grid. -/
structure DecimalGrid.Admits (grid : DecimalGrid) (value : ℚ) : Prop where
  minimum_le : grid.minimum ≤ value
  le_maximum : value ≤ grid.maximum
  multiple : Multiple grid.step value

theorem admits_of_gridReasons {grid : DecimalGrid} {name misaligned : String} {value : ℚ}
    (hreasons : gridReasons grid name misaligned value = []) : grid.Admits value := by
  simp only [gridReasons, List.append_eq_nil_iff, ite_eq_right_iff, ite_eq_left_iff,
    List.cons_ne_nil, imp_false, not_lt, Bool.not_eq_true, Bool.not_eq_false] at hreasons
  obtain ⟨⟨hminimum, hmaximum⟩, haligned⟩ := hreasons
  exact ⟨hminimum, hmaximum, ((grid.aligned_iff value).mp haligned).2⟩

theorem parseOrderDecimal_of_nil {value : Json} {fieldName : String}
    (hreasons : (parseOrderDecimal language value fieldName).2 = []) :
    ∃ parsed, number language value = some parsed ∧ 0 < parsed ∧
      (parseOrderDecimal language value fieldName).1 = some parsed := by
  unfold parseOrderDecimal at hreasons ⊢
  cases hnumber : number language value with
  | none =>
    rw [hnumber] at hreasons
    cases hreasons
  | some parsed =>
    rw [hnumber] at hreasons
    dsimp only at hreasons ⊢
    by_cases hpositive : parsed ≤ 0
    · rw [if_pos hpositive] at hreasons
      cases hreasons
    · rw [if_neg hpositive]
      exact ⟨parsed, rfl, not_le.mp hpositive, rfl⟩

theorem parseOptional_of_nil {value : Option Json} {fieldName : String}
    (hreasons : (parseOptional language value fieldName).2 = []) :
    (parseOptional language value fieldName).1 = value.bind (number language) := by
  cases value with
  | none => rfl
  | some value =>
    obtain ⟨parsed, hnumber, -, hparsed⟩ := parseOrderDecimal_of_nil hreasons
    rw [parseOptional, hparsed, Option.bind_some, hnumber]

variable (language) in
/-- What the checks of an accepted order say. -/
structure Checked (metadata : SymbolOrderMetadata) (order : Order) : Prop where
  side : language.upper order.side ∈ ["BUY", "SELL"]
  orderType : language.upper order.orderType ∈ ["LIMIT", "MARKET"]
  quantity : ∃ requested, number language order.quantity = some requested ∧
    orderQuantity language metadata order = some (if order.normalize then
      (quantityGrid metadata (language.upper order.orderType)).floor requested else requested)
  admits : ∀ quantity ∈ orderQuantity language metadata order,
    (quantityGrid metadata (language.upper order.orderType)).Admits quantity
  price : language.upper order.orderType = "LIMIT" → ∃ requested price,
    order.price.bind (number language) = some requested ∧
    orderPrice language metadata order = some price ∧ metadata.price.Admits price ∧
    price = if order.normalize = true then
      if language.upper order.side = "BUY" then metadata.price.floor requested
      else metadata.price.ceil requested
    else requested
  notionalPrice : notionalPrice language metadata order =
    if language.upper order.orderType = "LIMIT" then orderPrice language metadata order
    else order.referencePrice.bind (number language)
  minimum : applies (language.upper order.orderType) metadata.notional.applyMinToMarket = true →
    ∃ notional ∈ orderNotional language metadata order, metadata.notional.minimum ≤ notional
  maximum : applies (language.upper order.orderType) metadata.notional.applyMaxToMarket = true →
    ∀ bound ∈ metadata.notional.maximum,
      ∃ notional ∈ orderNotional language metadata order, notional ≤ bound

theorem notional_of_nil {metadata : SymbolOrderMetadata} {order : Order}
    (hreasons : notionalReasons language metadata order = []) :
    (applies (language.upper order.orderType) metadata.notional.applyMinToMarket = true →
      ∃ notional ∈ orderNotional language metadata order, metadata.notional.minimum ≤ notional) ∧
    (applies (language.upper order.orderType) metadata.notional.applyMaxToMarket = true →
      ∀ bound ∈ metadata.notional.maximum,
        ∃ notional ∈ orderNotional language metadata order, notional ≤ bound) := by
  unfold notionalReasons at hreasons
  cases hnotional : orderNotional language metadata order with
  | none =>
    simp only [hnotional, ite_eq_right_iff, List.cons_ne_nil, imp_false, Bool.or_eq_true,
      Bool.and_eq_true, not_or, not_and, Option.isSome_iff_exists, not_exists] at hreasons
    exact ⟨fun h ↦ absurd h hreasons.1, fun h bound hbound ↦ absurd hbound (hreasons.2 h bound)⟩
  | some notional =>
    simp only [hnotional, List.append_eq_nil_iff, ite_eq_right_iff, List.cons_ne_nil, imp_false,
      not_and, not_lt, not_exists] at hreasons
    exact ⟨fun h ↦ ⟨notional, rfl, hreasons.1 h⟩,
      fun h bound hbound ↦ ⟨notional, rfl, hreasons.2 h bound hbound⟩⟩

theorem price_of_nil {metadata : SymbolOrderMetadata} {order : Order}
    (hparsed : (parseOptional language order.price "price").2 = [])
    (hreasons : priceReasons language metadata order = [])
    (hlimit : language.upper order.orderType = "LIMIT") :
    ∃ requested price, order.price.bind (number language) = some requested ∧
      orderPrice language metadata order = some price ∧ metadata.price.Admits price ∧
      price = if order.normalize = true then
        if language.upper order.side = "BUY" then metadata.price.floor requested
        else metadata.price.ceil requested
      else requested := by
  rw [priceReasons, if_pos hlimit] at hreasons
  cases hprice : orderPrice language metadata order with
  | none =>
    rw [hprice] at hreasons
    cases hreasons
  | some price =>
    rw [hprice] at hreasons
    rw [orderPrice, parseOptional_of_nil hparsed, Option.map_eq_some_iff] at hprice
    obtain ⟨requested, hrequested, rfl⟩ := hprice
    refine ⟨requested, _, hrequested, rfl, admits_of_gridReasons hreasons, ?_⟩
    simp only [hlimit, true_and]

theorem checked_of_nil {ttl : ℚ} {metadata : SymbolOrderMetadata} {order : Order}
    (hreasons : reasons language ttl metadata order = []) : Checked language metadata order := by
  simp only [reasons, List.append_eq_nil_iff] at hreasons
  obtain ⟨⟨⟨⟨⟨⟨⟨⟨⟨-, -⟩, hside⟩, htype⟩, hquantity⟩, hprice⟩, hreference⟩, hgrid⟩, hlimit⟩,
    hnotional⟩ := hreasons
  obtain ⟨requested, hrequested, -, hparsed⟩ := parseOrderDecimal_of_nil hquantity
  have hnotionals := notional_of_nil hnotional
  refine ⟨?_, ?_, ⟨requested, hrequested, ?_⟩, ?_, price_of_nil hprice hlimit, ?_, hnotionals.1,
    hnotionals.2⟩
  · by_contra hother
    rw [if_neg hother] at hside
    cases hside
  · by_contra hother
    rw [if_neg hother] at htype
    cases htype
  · rw [orderQuantity, hparsed, Option.map_some]
  · intro quantity hmem
    rw [quantityReasons, Option.mem_def.mp hmem] at hgrid
    exact admits_of_gridReasons hgrid
  · rw [notionalPrice, parseOptional_of_nil hreference]

/-! ### The quantity -/

theorem lot_unique {filters : List (String × Filter)} {name : String} {filter : Filter}
    (hfilter : filters.lookup name = some filter) {least greatest step : ℚ} :
    Lot language filters name least greatest step ↔
      number language (Json.get filter "minQty") = some least ∧
      number language (Json.get filter "maxQty") = some greatest ∧
      number language (Json.get filter "stepSize") = some step := by
  simp [Lot, hfilter]

section Document

variable {filters : List (String × Filter)} {metadata : SymbolOrderMetadata}
  (hparsed : Parsed language filters metadata)

include hparsed

theorem lot_iff {least greatest step : ℚ} :
    Lot language filters "LOT_SIZE" least greatest step ↔
      metadata.lot.minimum = least ∧ metadata.lot.maximum = greatest ∧
        metadata.lot.step = step := by
  obtain ⟨filter, hfilter, hdescribes⟩ := hparsed.lot
  rw [lot_unique hfilter, hdescribes.minimum, hdescribes.maximum, hdescribes.step]
  simp only [Option.some.injEq]

/-- A market lot of the document is the grid of the symbol, up to a step of zero. -/
theorem marketLot_of_lot {least greatest step : ℚ}
    (hlot : Lot language filters "MARKET_LOT_SIZE" least greatest step) :
    ∃ grid, metadata.marketLot = some grid ∧ grid.minimum = least ∧ grid.maximum = greatest ∧
      grid.step = if step = 0 then metadata.lot.step else step := by
  obtain ⟨hnone, -⟩ | ⟨filter, grid, hfilter, hgrid, hdescribes⟩ := hparsed.marketLot
  · obtain ⟨filter, hfilter, -⟩ := hlot
    rw [hnone] at hfilter
    cases hfilter
  · obtain ⟨hleast, hgreatest, hstep⟩ := (lot_unique hfilter).mp hlot
    obtain ⟨found, hfound, -, hgridStep⟩ := hdescribes.step
    rw [hdescribes.minimum] at hleast
    rw [hdescribes.maximum] at hgreatest
    rw [hfound] at hstep
    obtain rfl := Option.some.inj hstep
    exact ⟨grid, hgrid, Option.some.inj hleast, Option.some.inj hgreatest, hgridStep⟩

theorem exists_marketLot {grid : DecimalGrid} (hgrid : metadata.marketLot = some grid) :
    ∃ step, Lot language filters "MARKET_LOT_SIZE" grid.minimum grid.maximum step ∧ 0 ≤ step ∧
      grid.step = if step = 0 then metadata.lot.step else step := by
  obtain ⟨-, hnone⟩ | ⟨filter, _, hfilter, hsome, hdescribes⟩ := hparsed.marketLot
  · rw [hnone] at hgrid
    cases hgrid
  · rw [hgrid] at hsome
    obtain rfl := Option.some.inj hsome
    obtain ⟨step, hstep, hnonneg, hgridStep⟩ := hdescribes.step
    exact ⟨step, (lot_unique hfilter).mpr ⟨hdescribes.minimum, hdescribes.maximum, hstep⟩,
      hnonneg, hgridStep⟩

/-- The steps of the document are those of the grids of the symbol. -/
theorem onSteps_iff {orderType : String} {quantity : ℚ} :
    OnSteps language filters orderType quantity ↔ Multiple metadata.lot.step quantity ∧
      (orderType = "MARKET" → ∀ grid ∈ metadata.marketLot, Multiple grid.step quantity) := by
  have hlot : (∀ least greatest step, Lot language filters "LOT_SIZE" least greatest step →
      Multiple step quantity) ↔ Multiple metadata.lot.step quantity := by
    simp only [lot_iff hparsed]
    exact ⟨fun h ↦ h _ _ _ ⟨rfl, rfl, rfl⟩, fun h _ _ _ ⟨_, _, hstep⟩ ↦ hstep ▸ h⟩
  rw [OnSteps, hlot]
  refine and_congr_right fun hmultiple ↦ imp_congr_right fun _ ↦ ⟨fun h grid hgrid ↦ ?_,
    fun h least greatest step hmarket hpositive ↦ ?_⟩
  · obtain ⟨step, hmarket, hnonneg, hstep⟩ := exists_marketLot hparsed hgrid
    by_cases hzero : step = 0
    · rwa [hstep, if_pos hzero]
    · rw [hstep, if_neg hzero]
      exact h _ _ _ hmarket (lt_of_le_of_ne hnonneg (Ne.symm hzero))
  · obtain ⟨grid, hgrid, -, -, hstep⟩ := marketLot_of_lot hparsed hmarket
    rw [if_neg hpositive.ne'] at hstep
    exact hstep ▸ h grid hgrid

/-- A quantity on the grid of an order conforms if it is one of the lot. -/
theorem quantityConforms_iff {orderType : String} {normalize : Bool} {requested quantity : ℚ}
    (hquantity : quantity =
      if normalize then (quantityGrid metadata orderType).floor requested else requested)
    (hadmits : (quantityGrid metadata orderType).Admits quantity) :
    QuantityConforms language filters orderType normalize requested quantity ↔
      metadata.lot.Admits quantity := by
  constructor
  · intro hconforms
    obtain ⟨hminimum, hmaximum⟩ := hconforms.lot _ _ _ ((lot_iff hparsed).mpr ⟨rfl, rfl, rfl⟩)
    exact ⟨hminimum, hmaximum, ((onSteps_iff hparsed).mp hconforms.steps).1⟩
  · intro hlot
    have hmarket : orderType = "MARKET" → ∀ grid ∈ metadata.marketLot, grid.Admits quantity := by
      rintro rfl grid hgrid
      rwa [quantityGrid, if_pos rfl, Option.mem_def.mp hgrid] at hadmits
    have hgreatest := isGreatest_floor (quantityGrid metadata orderType).step_pos requested
    refine ⟨?_, ?_, ?_, ?_, ?_⟩
    · intro least greatest step hfound
      obtain ⟨rfl, rfl, rfl⟩ := (lot_iff hparsed).mp hfound
      exact ⟨hlot.minimum_le, hlot.le_maximum⟩
    · intro htype least greatest step hfound
      obtain ⟨grid, hgrid, rfl, rfl, -⟩ := marketLot_of_lot hparsed hfound
      exact ⟨(hmarket htype grid hgrid).minimum_le, (hmarket htype grid hgrid).le_maximum⟩
    · exact (onSteps_iff hparsed).mpr
        ⟨hlot.multiple, fun htype grid hgrid ↦ (hmarket htype grid hgrid).multiple⟩
    · cases normalize with
      | false => exact hquantity.le
      | true =>
        rw [hquantity]
        exact hgreatest.1.2
    · rintro rfl other hsteps hle
      rw [hquantity]
      refine hgreatest.2 ⟨?_, hle⟩
      -- The grid of an order is one of the two whose steps a conforming quantity keeps.
      obtain ⟨hlotSteps, hmarketSteps⟩ := (onSteps_iff hparsed).mp hsteps
      unfold quantityGrid
      split_ifs with htype
      · cases hgrid : metadata.marketLot with
        | none => exact hlotSteps
        | some grid => exact hmarketSteps htype grid hgrid
      · exact hlotSteps

/-! ### The price and the notional -/

theorem priceConforms {side : String} {normalize : Bool} {requested price : ℚ}
    (hprice : price = if normalize = true then
      if side = "BUY" then metadata.price.floor requested else metadata.price.ceil requested
      else requested)
    (hadmits : metadata.price.Admits price) :
    PriceConforms language filters side requested price := by
  obtain ⟨filter, hfilter, hdescribes⟩ := hparsed.price
  have hfloor := (isGreatest_floor metadata.price.step_pos requested).1.2
  have hceil := (isLeast_ceil metadata.price.step_pos requested).1.2
  refine ⟨?_, ?_, ?_, ?_⟩
  · intro other hother least hleast greatest hgreatest
    obtain rfl := Option.some.inj (hfilter.symm.trans hother)
    obtain rfl := Option.some.inj (hdescribes.minimum.symm.trans hleast)
    obtain rfl := Option.some.inj (hdescribes.maximum.symm.trans hgreatest)
    exact ⟨hadmits.minimum_le, hadmits.le_maximum⟩
  · intro other hother tick htick
    obtain rfl := Option.some.inj (hfilter.symm.trans hother)
    obtain rfl := Option.some.inj (hdescribes.step.symm.trans htick)
    exact hadmits.multiple
  · rintro rfl
    cases normalize with
    | false => exact hprice.le
    | true => exact hprice.trans_le hfloor
  · rintro rfl
    cases normalize with
    | false => exact hprice.ge
    | true => exact hceil.trans hprice.ge

/-- The bounds of the new notional filter are those of the symbol. -/
theorem newFloor_minimum {orderType : String} {bound : ℚ}
    (hfloor : NewFloor language filters orderType bound) :
    applies orderType metadata.notional.applyMinToMarket = true ∧
      metadata.notional.minimum = bound := by
  obtain ⟨filter, hfilter, hbound, happlies⟩ := hfloor
  cases hparsed.notional with
  | new found hfound hminimum _ happlyMin _ =>
    obtain rfl := Option.some.inj (hfilter.symm.trans hfound)
    rw [happlyMin]
    exact ⟨happlies, Option.some.inj (hminimum.symm.trans hbound)⟩
  | old _ hnone =>
    rw [hnone] at hfilter
    cases hfilter

theorem newCeiling_maximum {orderType : String} {bound : ℚ}
    (hceiling : NewCeiling language filters orderType bound) :
    applies orderType metadata.notional.applyMaxToMarket = true ∧
      metadata.notional.maximum = some bound := by
  obtain ⟨filter, hfilter, hbound, happlies⟩ := hceiling
  cases hparsed.notional with
  | new found hfound _ hmaximum _ happlyMax =>
    obtain rfl := Option.some.inj (hfilter.symm.trans hfound)
    rw [happlyMax, hmaximum]
    exact ⟨happlies, hbound⟩
  | old _ hnone =>
    rw [hnone] at hfilter
    cases hfilter

/-- The old notional filter is read where it stands alone. -/
theorem oldFloor_minimum {orderType : String} {bound : ℚ}
    (hnone : filters.lookup "NOTIONAL" = none)
    (hfloor : OldFloor language filters orderType bound) :
    applies orderType metadata.notional.applyMinToMarket = true ∧
      metadata.notional.minimum = bound := by
  obtain ⟨filter, hfilter, hbound, happlies⟩ := hfloor
  cases hparsed.notional with
  | new found hfound =>
    rw [hnone] at hfound
    cases hfound
  | old found _ hfound hminimum _ happlyMin =>
    obtain rfl := Option.some.inj (hfilter.symm.trans hfound)
    rw [happlyMin]
    exact ⟨happlies, Option.some.inj (hminimum.symm.trans hbound)⟩

end Document

/-! ### Accepted results -/

theorem validateOrder_of_lookup {registry : Registry} {ttl : ℚ} {order : Order}
    {metadata : SymbolOrderMetadata}
    (hlookup : registry.metadata.lookup ⟨order.market, language.upper order.symbol⟩ =
      some metadata) :
    validateOrder language registry ttl order =
      { accepted := (reasons language ttl metadata order).isEmpty
        symbol := language.upper order.symbol
        market := order.market
        side := language.upper order.side
        orderType := language.upper order.orderType
        quantity := orderQuantity language metadata order
        price := orderPrice language metadata order
        notional := orderNotional language metadata order
        metadataAgeSeconds := age metadata order.checkedAt
        reasons := (reasons language ttl metadata order).eraseDups
        normalized := order.normalize } := by
  unfold validateOrder
  dsimp only
  rw [hlookup]

/-- The product of a checked order is its notional. -/
theorem productMeets_iff {metadata : SymbolOrderMetadata} {order : Order}
    (hchecked : Checked language metadata order) {result : OrderFilterResult}
    (htype : result.orderType = language.upper order.orderType)
    (hquantity : result.quantity = orderQuantity language metadata order)
    (hprice : result.price = orderPrice language metadata order) (property : ℚ → Prop) :
    ProductMeets language order result property ↔
      ∃ notional ∈ orderNotional language metadata order, property notional := by
  have hused : priceUsed language order result = notionalPrice language metadata order := by
    rw [priceUsed, htype, hprice, hchecked.notionalPrice]
  rw [ProductMeets, hused, hquantity, orderNotional]
  cases orderQuantity language metadata order with
  | none => simp
  | some quantity =>
    cases notionalPrice language metadata order with
    | none => simp
    | some price => simp

/-- An accepted order conforms to the document of its symbol exactly if the gaps of the filters do
not matter to it. -/
theorem conforms_iff {payload : List (String × Json)} {market : Market} {receivedAt : ℚ}
    {sourceHash : String} {metadata : SymbolOrderMetadata}
    (hparse : parseBinanceSymbolMetadata language payload market receivedAt sourceHash =
      .ok metadata)
    {items : List Json} (hitems : Json.get payload "filters" = .list items)
    {registry : Registry} {ttl : ℚ} {order : Order}
    (hlookup : registry.metadata.lookup ⟨order.market, language.upper order.symbol⟩ =
      some metadata)
    (haccepted : (validateOrder language registry ttl order).accepted = true) :
    Conforms language (filtersByType language items) order
        (validateOrder language registry ttl order) ↔
      Covered language (filtersByType language items) metadata order := by
  obtain ⟨-, -, found, hfound, hparsed⟩ := parse_eq_ok hparse
  obtain rfl : found = items := Json.list.inj (hfound.symm.trans hitems)
  rw [validateOrder_of_lookup hlookup] at haccepted ⊢
  have hchecked := checked_of_nil (List.isEmpty_iff.mp haccepted)
  obtain ⟨requested, hrequested, hquantity⟩ := hchecked.quantity
  have hadmits := hchecked.admits _ hquantity
  have hlaw := quantityConforms_iff hparsed rfl hadmits
  constructor
  · intro hconforms
    refine ⟨?_, ?_⟩
    · intro htype grid hgrid wanted hwanted
      obtain rfl := Option.some.inj (hrequested.symm.trans hwanted)
      obtain ⟨_, quantity, hsame, hresult, hquantityConforms⟩ := hconforms.quantity
      obtain rfl := Option.some.inj (hrequested.symm.trans hsame)
      obtain rfl := Option.some.inj (hquantity.symm.trans hresult)
      have hlot := hlaw.mp hquantityConforms
      rw [quantityGrid, if_pos htype, Option.mem_def.mp hgrid, Option.getD_some] at hlot
      exact ⟨hlot.minimum_le, hlot.le_maximum, hlot.multiple⟩
    · intro _ bound hbound
      exact (productMeets_iff hchecked rfl rfl rfl _).mp (hconforms.oldFloor bound hbound)
  · intro hcovered
    have hlot : metadata.lot.Admits (if order.normalize = true then
        (quantityGrid metadata (language.upper order.orderType)).floor requested
        else requested) := by
      by_cases htype : language.upper order.orderType = "MARKET"
      · cases hgrid : metadata.marketLot with
        | none => rwa [quantityGrid, if_pos htype, hgrid] at hadmits ⊢
        | some grid =>
          obtain ⟨hminimum, hmaximum, hmultiple⟩ := hcovered.lot htype grid hgrid _ hrequested
          rw [quantityGrid, if_pos htype, hgrid]
          exact ⟨hminimum, hmaximum, hmultiple⟩
      · rwa [quantityGrid, if_neg htype] at hadmits ⊢
    refine ⟨⟨requested, _, hrequested, hquantity, hlaw.mpr hlot⟩, ?_, ?_, ?_, ?_⟩
    · intro htype
      obtain ⟨wanted, price, hwanted, hprice, hpriceAdmits, hrounded⟩ := hchecked.price htype
      exact ⟨wanted, price, hwanted, hprice, priceConforms hparsed hrounded hpriceAdmits⟩
    · intro bound hbound
      obtain ⟨happlies, rfl⟩ := newFloor_minimum hparsed hbound
      exact (productMeets_iff hchecked rfl rfl rfl _).mpr (hchecked.minimum happlies)
    · intro bound hbound
      obtain ⟨happlies, hmaximum⟩ := newCeiling_maximum hparsed hbound
      exact (productMeets_iff hchecked rfl rfl rfl _).mpr (hchecked.maximum happlies bound hmaximum)
    · intro bound hbound
      refine (productMeets_iff hchecked rfl rfl rfl _).mpr ?_
      by_cases hnew : (filtersByType language found).lookup "NOTIONAL" = none
      · obtain ⟨happlies, rfl⟩ := oldFloor_minimum hparsed hnew hbound
        exact hchecked.minimum happlies
      · exact hcovered.oldFloor hnew bound hbound

end Validation

/-! ### A market order off the lot -/

def sampleOrder (orderType quantity : String) : Order where
  symbol := "btc"
  market := .spot
  side := "buy"
  orderType := orderType
  quantity := .text quantity
  price := some (.text "1")
  referencePrice := some (.text "1")
  checkedAt := .finite 2
  normalize := false

theorem exists_sampleMetadata :
    ∃ metadata, parseBinanceSymbolMetadata sampleLanguage sampleObject .spot 1 "hash" =
      .ok metadata ∧ sampleRegistry.metadata.lookup ⟨.spot, sampleLanguage.upper "btc"⟩ =
        some metadata :=
  ⟨_, rfl, by decide +kernel⟩

/-- A market order of three is accepted, although the step of the lot is two. -/
theorem market_order_off_lot :
    (∃ metadata, parseBinanceSymbolMetadata sampleLanguage sampleObject .spot 1 "hash" =
      .ok metadata ∧ sampleRegistry.metadata.lookup ⟨.spot, sampleLanguage.upper "btc"⟩ =
        some metadata) ∧
    (validateOrder sampleLanguage sampleRegistry 3600 (sampleOrder "market" "3")).accepted = true ∧
    ¬ Conforms sampleLanguage (filtersByType sampleLanguage sampleFilters)
      (sampleOrder "market" "3")
      (validateOrder sampleLanguage sampleRegistry 3600 (sampleOrder "market" "3")) := by
  refine ⟨exists_sampleMetadata, by decide +kernel, fun hconforms ↦ ?_⟩
  obtain ⟨requested, quantity, -, hresult, hquantity⟩ := hconforms.quantity
  have hthree : (validateOrder sampleLanguage sampleRegistry 3600
      (sampleOrder "market" "3")).quantity = some 3 := by
    decide +kernel
  have hlot : Lot sampleLanguage (filtersByType sampleLanguage sampleFilters) "LOT_SIZE" 1 100 2 :=
    ⟨_, rfl, by decide +kernel, by decide +kernel, by decide +kernel⟩
  obtain rfl := Option.some.inj (hthree.symm.trans hresult)
  obtain ⟨k, hk⟩ := hquantity.steps.1 1 100 2 hlot
  have hodd : (3 : ℤ) = k * 2 := by exact_mod_cast hk
  omega

/-- A limit order has no gap. -/
theorem conforms_iff_limit :
    ∃ metadata, Covered sampleLanguage (filtersByType sampleLanguage sampleFilters) metadata
        (sampleOrder "limit" "2") ∧
      Conforms sampleLanguage (filtersByType sampleLanguage sampleFilters)
        (sampleOrder "limit" "2")
        (validateOrder sampleLanguage sampleRegistry 3600 (sampleOrder "limit" "2")) := by
  obtain ⟨metadata, hparse, hlookup⟩ := exists_sampleMetadata
  have haccepted : (validateOrder sampleLanguage sampleRegistry 3600
      (sampleOrder "limit" "2")).accepted = true := by
    decide +kernel
  have hlimit : sampleLanguage.upper "limit" ≠ "MARKET" := by decide +kernel
  have hold : (filtersByType sampleLanguage sampleFilters).lookup "NOTIONAL" = none := by
    decide +kernel
  have hcovered : Covered sampleLanguage (filtersByType sampleLanguage sampleFilters) metadata
      (sampleOrder "limit" "2") :=
    ⟨fun htype ↦ absurd htype hlimit, fun hnew ↦ absurd hold hnew⟩
  exact ⟨metadata, hcovered, (conforms_iff hparse rfl hlookup haccepted).mpr hcovered⟩

end Bongus.Filters
