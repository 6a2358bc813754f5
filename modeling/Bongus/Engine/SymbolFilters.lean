import Bongus.Engine.EntryQuantity
import Bongus.Lib.Dictionary
import Bongus.Lib.Documents

/-!
# The filters of a symbol and the quantities of market orders

`parse_symbol_filters` of `execution_engine/src/binance_rest.rs` reads the filters of the symbols
that can be traded from a document of the exchange, and merges the two filters of the quantity for
market orders. `format_market_quantity_with_price` of `execution_engine/src/order_manager.rs` is the
text of a quantity that the filters admit. Doubles are read as the exact decimals that they are
made from.
-/

set_option autoImplicit false
set_option relaxedAutoImplicit false

namespace Bongus.Num.ExactDecimal

def checkedProduct (left right : ExactDecimal) : Option ExactDecimal :=
  (checkedMul left.units right.units).map (normalized · (left.scale + right.scale))

end Bongus.Num.ExactDecimal

namespace Bongus.Engine.SymbolFilters

open Lib.Dictionary Lib.Documents Num ExactDecimal

/-! ### Fields of a document -/

def field (node : Json) (key : String) : Option Json :=
  match node with
  | .dict entries => entries.lookup key
  | _ => none

def asStr : Json → Option String
  | .text value => some value
  | _ => none

def asBool : Json → Option Bool
  | .bool value => some value
  | _ => none

def asArray : Json → Option (List Json)
  | .list items => some items
  | _ => none

/-- A field may be absent, but it may not be anything else than a decimal that is not negative. -/
def decimalField (filter : Json) (key : String) : Option (Option ExactDecimal) :=
  match field filter key with
  | none => some none
  | some node => do
    let raw ← asStr node
    let value ← (fromStr raw).toOption
    if value.cmp zero = .lt then none else some (some value)

/-- A field that is not positive counts as absent. -/
def positiveField (filter : Json) (key : String) : Option (Option ExactDecimal) :=
  (decimalField filter key).map fun value ↦ value.filter isPositive

def boolField (filter : Json) (key : String) (default : Bool) : Option Bool :=
  match field filter key with
  | none => some default
  | some node => asBool node

def filterType (filter : Json) : Option String := (field filter "filterType").bind asStr

/-! ### Filters -/

structure PriceFilter where
  tickSize : ExactDecimal
  minPrice : ExactDecimal
  maxPrice : ExactDecimal

structure LotFilter where
  minQty : Option ExactDecimal := none
  stepSize : Option ExactDecimal := none
  maxQty : Option ExactDecimal := none

structure NotionalFilter where
  minNotional : ExactDecimal
  maxNotional : Option ExactDecimal
  minApplyToMarket : Bool
  maxApplyToMarket : Bool

def readPriceFilter (filter : Json) : Option PriceFilter := do
  let tickSize ← positiveField filter "tickSize"
  let tickSize ← tickSize
  let minPrice ← positiveField filter "minPrice"
  let maxPrice ← positiveField filter "maxPrice"
  return ⟨tickSize, minPrice.getD zero, maxPrice.getD maximum⟩

def readMarketLotSize (filter : Json) : Option LotFilter := do
  let minQty ← positiveField filter "minQty"
  let stepSize ← positiveField filter "stepSize"
  let maxQty ← positiveField filter "maxQty"
  return ⟨minQty, stepSize, maxQty⟩

def readLotSize (filter : Json) : Option LotFilter :=
  (readMarketLotSize filter).filter fun lot ↦
    lot.minQty.isSome && lot.stepSize.isSome && lot.maxQty.isSome

/-- The least notional, which must be positive. -/
def readMinNotional (filter : Json) : Option ExactDecimal :=
  ((((field filter "minNotional").or (field filter "notional")).bind asStr).bind fun raw ↦
    (fromStr raw).toOption).filter isPositive

def readNotional (filter : Json) : Option NotionalFilter := do
  let minNotional ← readMinNotional filter
  if filterType filter = some "NOTIONAL" then
    let maxNotional ← positiveField filter "maxNotional"
    let minApplyToMarket ← boolField filter "applyMinToMarket" true
    let maxApplyToMarket ← boolField filter "applyMaxToMarket" true
    return ⟨minNotional, maxNotional, minApplyToMarket, maxApplyToMarket⟩
  else
    let minApplyToMarket ← boolField filter "applyToMarket" true
    return ⟨minNotional, none, minApplyToMarket, false⟩

/-- The filters that were seen. -/
structure FilterState where
  price : Option PriceFilter := none
  lot : Option LotFilter := none
  marketLot : Option LotFilter := none
  notional : Option NotionalFilter := none

/-- A filter that was not seen before. A second one of its kind makes the filters invalid. -/
def once {α : Type} (seen read : Option α) : Option α := if seen.isSome then none else read

def readFilter (state : FilterState) (filter : Json) : Option FilterState := do
  let kind ← filterType filter
  if kind = "PRICE_FILTER" then
    let price ← once state.price (readPriceFilter filter)
    return { state with price := some price }
  else if kind = "LOT_SIZE" then
    let lot ← once state.lot (readLotSize filter)
    return { state with lot := some lot }
  else if kind = "MARKET_LOT_SIZE" then
    let marketLot ← once state.marketLot (readMarketLotSize filter)
    return { state with marketLot := some marketLot }
  else if kind = "NOTIONAL" ∨ kind = "MIN_NOTIONAL" then
    let notional ← once state.notional (readNotional filter)
    return { state with notional := some notional }
  else return state

/-! ### Symbols -/

structure ParsedSymbolFilters where
  tickSize : ExactDecimal
  minPrice : ExactDecimal
  maxPrice : ExactDecimal
  minQty : ExactDecimal
  stepSize : ExactDecimal
  maxQty : ExactDecimal
  marketMinQty : ExactDecimal
  marketStepSize : ExactDecimal
  marketMaxQty : ExactDecimal
  minNotional : ExactDecimal
  maxNotional : Option ExactDecimal
  minNotionalApplyToMarket : Bool
  maxNotionalApplyToMarket : Bool

/-- The step of market orders is one of both grids. -/
def mergeStepSize (stepSize : ExactDecimal) : Option ExactDecimal → Option ExactDecimal
  | some market => stepSize.checkedCommonIncrement market
  | none => some stepSize

/-- The filters of a symbol, with those for market orders within the general ones. -/
def mergeFilters (price : PriceFilter) (minQty stepSize maxQty : ExactDecimal)
    (marketLot : LotFilter) (notional : NotionalFilter) : Option ParsedSymbolFilters := do
  let marketMinQty := (marketLot.minQty.getD minQty).max minQty
  let marketStepSize ← mergeStepSize stepSize marketLot.stepSize
  let marketMaxQty := (marketLot.maxQty.getD maxQty).min maxQty
  if price.minPrice.cmp price.maxPrice = .gt ∨ minQty.cmp maxQty = .gt ∨
      marketMinQty.cmp marketMaxQty = .gt ∨
      notional.maxNotional.any (·.cmp notional.minNotional = .lt) then none
  else return {
    tickSize := price.tickSize
    minPrice := price.minPrice
    maxPrice := price.maxPrice
    minQty
    stepSize
    maxQty
    marketMinQty
    marketStepSize
    marketMaxQty
    minNotional := notional.minNotional
    maxNotional := notional.maxNotional
    minNotionalApplyToMarket := notional.minApplyToMarket
    maxNotionalApplyToMarket := notional.maxApplyToMarket }

def symbolName (entry : Json) : String := ((field entry "symbol").bind asStr).getD ""

def filtersOf (entry : Json) : Option (List Json) := (field entry "filters").bind asArray

def parseSymbol (entry : Json) : Option ParsedSymbolFilters :=
  if symbolName entry = "" ∨ (field entry "status").bind asStr ≠ some "TRADING" then none
  else do
    let filters ← filtersOf entry
    let state ← filters.foldlM readFilter {}
    let price ← state.price
    let lot ← state.lot
    let stepSize ← lot.stepSize
    let minQty ← lot.minQty
    let maxQty ← lot.maxQty
    let notional ← state.notional
    mergeFilters price minQty stepSize maxQty (state.marketLot.getD {}) notional

def symbolsOf (document : Json) : List Json := ((field document "symbols").bind asArray).getD []

/-- A later entry of a symbol replaces an earlier one. -/
def parseSymbolFilters (document : Json) : List (String × ParsedSymbolFilters) :=
  (symbolsOf document).foldl (fun parsed entry ↦
    match parseSymbol entry with
    | some filters => assign parsed (symbolName entry) filters
    | none => parsed) []

/-- The filters of the two markets. -/
structure SymbolInfo where
  spot : ParsedSymbolFilters
  futures : ParsedSymbolFilters

def SymbolInfo.filters (info : SymbolInfo) : MarketType → ParsedSymbolFilters
  | .spot => info.spot
  | .perp => info.futures

/-- The symbols that both markets describe. -/
def getExchangeInfo (documents : MarketType → Json) : List (String × SymbolInfo) :=
  (parseSymbolFilters (documents .spot)).filterMap fun (symbol, spot) ↦
    ((parseSymbolFilters (documents .perp)).lookup symbol).map fun futures ↦
      (symbol, ⟨spot, futures⟩)

/-- The filters of a market for a symbol that is not described. -/
def unknownFilters : ParsedSymbolFilters where
  tickSize := ⟨1, 1⟩
  minPrice := zero
  maxPrice := maximum
  minQty := ⟨1, 1⟩
  stepSize := ⟨1, 1⟩
  maxQty := maximum
  marketMinQty := ⟨1, 1⟩
  marketStepSize := ⟨1, 1⟩
  marketMaxQty := maximum
  minNotional := ⟨5, 0⟩
  maxNotional := none
  minNotionalApplyToMarket := true
  maxNotionalApplyToMarket := false

def symbolInfo (exchangeInfo : List (String × SymbolInfo)) (symbol : String) : SymbolInfo :=
  (exchangeInfo.lookup symbol).getD ⟨unknownFilters, unknownFilters⟩

/-! ### Quantities -/

def formatQuantityForMarket (exchangeInfo : List (String × SymbolInfo)) (symbol : String)
    (market : MarketType) (quantity : ExactDecimal) (marketOrder : Bool) : Option String := do
  let filters := (symbolInfo exchangeInfo symbol).filters market
  let (stepSize, minimum, maximum) :=
    if marketOrder then (filters.marketStepSize, filters.marketMinQty, filters.marketMaxQty)
    else (filters.stepSize, filters.minQty, filters.maxQty)
  let normalized ← roundDownToStep quantity stepSize
  if normalized.cmp minimum = .lt ∨ normalized.cmp maximum = .gt then none
  else normalized.formatToScale stepSize.scale

def formatMarketQuantityWithPrice (exchangeInfo : List (String × SymbolInfo)) (symbol : String)
    (market : MarketType) (quantity referencePrice : ExactDecimal) : Option String := do
  let formatted ← formatQuantityForMarket exchangeInfo symbol market quantity true
  let quantity ← (fromStr formatted).toOption
  let price ← exactLiveValue referencePrice
  let notional ← quantity.checkedProduct price
  let filters := (symbolInfo exchangeInfo symbol).filters market
  let minimum := if filters.minNotionalApplyToMarket then some filters.minNotional else none
  let maximum := if filters.maxNotionalApplyToMarket then filters.maxNotional else none
  if minimum.any (fun minimum ↦ notional.cmp minimum = .lt) ∨
      maximum.any (fun maximum ↦ notional.cmp maximum = .gt) then none
  else some formatted

end Bongus.Engine.SymbolFilters
