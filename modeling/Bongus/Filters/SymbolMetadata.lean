import Bongus.Lib.Dictionary
import Bongus.Lib.Documents
import Bongus.Lib.Grids
import Bongus.Lib.Text

/-!
# The filters of a symbol

`parse_binance_symbol_metadata` of `bongus/engine/exchange_filters.py`: the price, lot, market lot
and notional filters of one symbol of an exchange-info document, or the first constraint that the
document does not prove. A grid and a notional filter carry what their constructors check. Decimal
arithmetic is exact.
-/

set_option autoImplicit false
set_option relaxedAutoImplicit false

namespace Bongus.Filters

open Lib.Dictionary Lib.Documents Lib.Fallible Lib.Grids Lib.Text

/-- What the filters take from the language: the text of a value, the cases of a text, the decimal
of a text, which can be no number or no finite one, and the hash of the canonical JSON of a
value. -/
structure Language where
  str : Json → String
  upper : String → String
  lower : String → String
  decimal : String → Option (Option ℚ)
  canonicalHash : Json → String

inductive Market where
  | spot
  | perp
deriving DecidableEq

/-! ### Fields -/

section Fields

variable (language : Language)

def readDecimal (value : Json) (fieldName : String) (allowZero : Bool) : Except String ℚ :=
  match language.decimal (language.str value) with
  | none => .error (fieldName ++ ":invalid_decimal")
  | some none => .error (fieldName ++ ":non_finite")
  | some (some parsed) =>
    if parsed < 0 ∨ (parsed = 0 ∧ allowZero = false) then .error (fieldName ++ ":not_positive")
    else .ok parsed

def optionalDecimal (value : Json) (fieldName : String) : Except String (Option ℚ) :=
  if value = .null ∨ value = .text "" then .ok none
  else do
    let parsed ← readDecimal language value fieldName true
    return if parsed = 0 then none else some parsed

def readBool (value : Json) (default : Bool) : Bool :=
  match value with
  | .null => default
  | .bool value => value
  | .text text =>
    let normalized := language.lower (trim separatorBlank text)
    if normalized ∈ ["true", "1", "yes"] then true
    else if normalized ∈ ["false", "0", "no"] then false
    else text ≠ ""
  | value => value.truthy

/-- The text of a field, empty if the field is missing. -/
def textField (payload : List (String × Json)) (key : String) : String :=
  ((payload.lookup key).map language.str).getD ""

end Fields

/-! ### Grids and notionals -/

/-- The prices or quantities that a filter admits. -/
structure DecimalGrid where
  minimum : ℚ
  maximum : ℚ
  step : ℚ
  minimum_nonneg : 0 ≤ minimum
  maximum_pos : 0 < maximum
  minimum_le_maximum : minimum ≤ maximum
  step_pos : 0 < step
deriving DecidableEq

namespace DecimalGrid

def make (minimum maximum step : ℚ) : Except String DecimalGrid :=
  if hminimum : minimum < 0 then .error "grid:negative_minimum"
  else if hmaximum : maximum ≤ 0 ∨ maximum < minimum then .error "grid:invalid_maximum"
  else if hstep : step ≤ 0 then .error "grid:invalid_step"
  else .ok ⟨minimum, maximum, step, not_lt.mp hminimum,
    not_le.mp fun h ↦ hmaximum (Or.inl h), not_lt.mp fun h ↦ hmaximum (Or.inr h),
    not_le.mp hstep⟩

variable (grid : DecimalGrid)

def floor (value : ℚ) : ℚ := (value / grid.step).floor * grid.step

def ceil (value : ℚ) : ℚ := (value / grid.step).ceil * grid.step

def aligned (value : ℚ) : Bool := 0 ≤ value && (grid.floor value = value : Bool)

theorem make_eq_ok {minimum maximum step : ℚ} {grid : DecimalGrid}
    (hmake : make minimum maximum step = .ok grid) :
    grid.minimum = minimum ∧ grid.maximum = maximum ∧ grid.step = step := by
  unfold make at hmake
  split_ifs at hmake
  obtain rfl := Except.ok.inj hmake
  exact ⟨rfl, rfl, rfl⟩

end DecimalGrid

structure NotionalFilter where
  minimum : ℚ
  maximum : Option ℚ
  applyMinToMarket : Bool
  applyMaxToMarket : Bool
  minimum_pos : 0 < minimum
  minimum_le_maximum : ∀ bound ∈ maximum, minimum ≤ bound
deriving DecidableEq

def NotionalFilter.make (minimum : ℚ) (maximum : Option ℚ)
    (applyMinToMarket applyMaxToMarket : Bool) : Except String NotionalFilter :=
  if hminimum : minimum ≤ 0 then .error "notional:invalid_minimum"
  else if hmaximum : ∀ bound ∈ maximum, minimum ≤ bound then
    .ok ⟨minimum, maximum, applyMinToMarket, applyMaxToMarket, not_le.mp hminimum, hmaximum⟩
  else .error "notional:maximum_below_minimum"

theorem NotionalFilter.make_eq_ok {minimum : ℚ} {maximum : Option ℚ} {applyMin applyMax : Bool}
    {filter : NotionalFilter}
    (hmake : NotionalFilter.make minimum maximum applyMin applyMax = .ok filter) :
    filter.minimum = minimum ∧ filter.maximum = maximum ∧ filter.applyMinToMarket = applyMin ∧
      filter.applyMaxToMarket = applyMax := by
  unfold NotionalFilter.make at hmake
  split_ifs at hmake
  obtain rfl := Except.ok.inj hmake
  exact ⟨rfl, rfl, rfl, rfl⟩

structure SymbolOrderMetadata where
  symbol : String
  market : Market
  status : String
  price : DecimalGrid
  lot : DecimalGrid
  marketLot : Option DecimalGrid
  notional : NotionalFilter
  receivedAt : ℚ
  sourceHash : String
deriving DecidableEq

def SymbolOrderMetadata.tradable (metadata : SymbolOrderMetadata) : Bool :=
  metadata.status = "TRADING"

/-! ### Parsing -/

section Parsing

variable (language : Language)

abbrev Filter := List (String × Json)

/-- The filters of a document by their types. Of several filters of one type, the last counts. -/
def filtersByType (items : List Json) : List (String × Filter) :=
  items.foldl (fun filters item ↦
    match item with
    | .dict entries =>
      let filterType := language.upper (textField language entries "filterType")
      if filterType = "" then filters else assign filters filterType entries
    | _ => filters) []

def grid (filter : Filter) (name minimum maximum step : String) : Except String DecimalGrid := do
  let least ← readDecimal language (Json.get filter minimum) (name ++ "." ++ minimum) true
  let greatest ← readDecimal language (Json.get filter maximum) (name ++ "." ++ maximum) false
  let increment ← readDecimal language (Json.get filter step) (name ++ "." ++ step) false
  DecimalGrid.make least greatest increment

/-- A market lot of step zero keeps the step of the lot. -/
def marketLotGrid (lot : DecimalGrid) (filter : Filter) : Except String DecimalGrid := do
  let marketStep ← readDecimal language (Json.get filter "stepSize") "MARKET_LOT_SIZE.stepSize" true
  let least ← readDecimal language (Json.get filter "minQty") "MARKET_LOT_SIZE.minQty" true
  let greatest ← readDecimal language (Json.get filter "maxQty") "MARKET_LOT_SIZE.maxQty" false
  DecimalGrid.make least greatest (if marketStep = 0 then lot.step else marketStep)

def newNotional (filter : Filter) : Except String NotionalFilter := do
  let minimum ← readDecimal language (Json.get filter "minNotional") "NOTIONAL.minNotional" false
  let maximum ← optionalDecimal language (Json.get filter "maxNotional") "NOTIONAL.maxNotional"
  NotionalFilter.make minimum maximum
    (readBool language (Json.get filter "applyMinToMarket") true)
    (readBool language (Json.get filter "applyMaxToMarket") true)

def oldNotional (filter : Filter) : Except String NotionalFilter := do
  let rawMinimum := (filter.lookup "minNotional").getD (Json.get filter "notional")
  let minimum ← readDecimal language rawMinimum "MIN_NOTIONAL.minNotional" false
  NotionalFilter.make minimum none (readBool language (Json.get filter "applyToMarket") true) false

def parseMarketLot (filters : List (String × Filter)) (lot : DecimalGrid) :
    Except String (Option DecimalGrid) :=
  match filters.lookup "MARKET_LOT_SIZE" with
  | none => pure none
  | some filter => do return some (← marketLotGrid language lot filter)

def parseNotional (filters : List (String × Filter)) : Except String NotionalFilter :=
  match filters.lookup "NOTIONAL" with
  | some filter => newNotional language filter
  | none =>
    match filters.lookup "MIN_NOTIONAL" with
    | none => throw "MIN_NOTIONAL/NOTIONAL:missing"
    | some filter => oldNotional language filter

/-- The filters of a symbol that is named and has a status. -/
def parseFilters (filters : List (String × Filter)) :
    Except String (DecimalGrid × DecimalGrid × Option DecimalGrid × NotionalFilter) := do
  let some priceFilter := filters.lookup "PRICE_FILTER" | throw "PRICE_FILTER:missing"
  let some lotFilter := filters.lookup "LOT_SIZE" | throw "LOT_SIZE:missing"
  let price ← grid language priceFilter "PRICE_FILTER" "minPrice" "maxPrice" "tickSize"
  let lot ← grid language lotFilter "LOT_SIZE" "minQty" "maxQty" "stepSize"
  let marketLot ← parseMarketLot language filters lot
  let notional ← parseNotional language filters
  return (price, lot, marketLot, notional)

def symbolOf (payload : List (String × Json)) : String :=
  language.upper (trim separatorBlank (textField language payload "symbol"))

def parseBinanceSymbolMetadata (payload : List (String × Json)) (market : Market)
    (receivedAt : ℚ) (sourceHash : String) : Except String SymbolOrderMetadata := do
  let symbol := symbolOf language payload
  let status := language.upper (trim separatorBlank (textField language payload "status"))
  if symbol = "" then throw "symbol:missing"
  if status = "" then throw "status:missing"
  let .list items := Json.get payload "filters" | throw "filters:missing"
  let (price, lot, marketLot, notional) ← parseFilters language (filtersByType language items)
  return {
    symbol := symbol
    market := market
    status := status
    price := price
    lot := lot
    marketLot := marketLot
    notional := notional
    receivedAt := receivedAt
    sourceHash := sourceHash }

/-! ### What a parsed symbol says -/

/-- The number that a value is read as. -/
def number (value : Json) : Option ℚ := (language.decimal (language.str value)).join

variable {language}

theorem readDecimal_eq_ok {value : Json} {fieldName : String} {allowZero : Bool} {parsed : ℚ} :
    readDecimal language value fieldName allowZero = .ok parsed ↔
      number language value = some parsed ∧ 0 ≤ parsed ∧ (parsed = 0 → allowZero = true) := by
  unfold readDecimal number
  cases language.decimal (language.str value) with
  | none => simp
  | some reading =>
    cases reading with
    | none => simp
    | some found =>
      simp only [Option.join_some, Option.some.injEq]
      split_ifs with hrefused
      · grind
      · grind

variable (language) in
/-- The fields of a filter are the bounds and the step of a grid. -/
structure Describes (filter : Filter) (minimum maximum step : String) (grid : DecimalGrid) :
    Prop where
  minimum : number language (Json.get filter minimum) = some grid.minimum
  maximum : number language (Json.get filter maximum) = some grid.maximum
  step : number language (Json.get filter step) = some grid.step

theorem describes_of_grid {filter : Filter} {name minimum maximum step : String}
    {parsed : DecimalGrid} (hgrid : grid language filter name minimum maximum step = .ok parsed) :
    Describes language filter minimum maximum step parsed := by
  unfold grid at hgrid
  simp only [bind_eq_ok, readDecimal_eq_ok] at hgrid
  obtain ⟨least, ⟨hleast, -⟩, greatest, ⟨hgreatest, -⟩, increment, ⟨hincrement, -⟩, hmake⟩ := hgrid
  obtain ⟨rfl, rfl, rfl⟩ := DecimalGrid.make_eq_ok hmake
  exact ⟨hleast, hgreatest, hincrement⟩

variable (language) in
/-- The fields of a market lot are the bounds of a grid and its step, which is that of the lot if
the field is zero. -/
structure DescribesMarket (filter : Filter) (lot grid : DecimalGrid) : Prop where
  minimum : number language (Json.get filter "minQty") = some grid.minimum
  maximum : number language (Json.get filter "maxQty") = some grid.maximum
  step : ∃ step, number language (Json.get filter "stepSize") = some step ∧ 0 ≤ step ∧
    grid.step = if step = 0 then lot.step else step

theorem describesMarket_of_grid {lot parsed : DecimalGrid} {filter : Filter}
    (hgrid : marketLotGrid language lot filter = .ok parsed) :
    DescribesMarket language filter lot parsed := by
  unfold marketLotGrid at hgrid
  simp only [bind_eq_ok, readDecimal_eq_ok] at hgrid
  obtain ⟨step, ⟨hstep, hnonneg, -⟩, least, ⟨hleast, -⟩, greatest, ⟨hgreatest, -⟩, hmake⟩ := hgrid
  obtain ⟨rfl, rfl, hparsed⟩ := DecimalGrid.make_eq_ok hmake
  exact ⟨hleast, hgreatest, step, hstep, hnonneg, hparsed⟩

variable (language) in
/-- The maximum of a notional filter, which zero and a missing field disable. -/
def maximumOf (filter : Filter) : Option ℚ :=
  let value := Json.get filter "maxNotional"
  if value = .null ∨ value = .text "" then none
  else (number language value).filter fun bound ↦ bound ≠ 0

/-- The minimum of an old notional filter, which has two names. -/
def oldMinimum (filter : Filter) : Json :=
  (filter.lookup "minNotional").getD (Json.get filter "notional")

variable (language) in
/-- What the notional filter of a symbol is read from. -/
inductive DescribesNotional (filters : List (String × Filter)) (notional : NotionalFilter) : Prop
  | new (filter : Filter) (hfilter : filters.lookup "NOTIONAL" = some filter)
      (hminimum : number language (Json.get filter "minNotional") = some notional.minimum)
      (hmaximum : notional.maximum = maximumOf language filter)
      (happlyMin : notional.applyMinToMarket =
        readBool language (Json.get filter "applyMinToMarket") true)
      (happlyMax : notional.applyMaxToMarket =
        readBool language (Json.get filter "applyMaxToMarket") true)
  | old (filter : Filter) (hnone : filters.lookup "NOTIONAL" = none)
      (hfilter : filters.lookup "MIN_NOTIONAL" = some filter)
      (hminimum : number language (oldMinimum filter) = some notional.minimum)
      (hmaximum : notional.maximum = none)
      (happlyMin : notional.applyMinToMarket =
        readBool language (Json.get filter "applyToMarket") true)

theorem optionalDecimal_eq_ok {filter : Filter} {fieldName : String} {maximum : Option ℚ}
    (hread : optionalDecimal language (Json.get filter "maxNotional") fieldName = .ok maximum) :
    maximum = maximumOf language filter := by
  unfold optionalDecimal at hread
  unfold maximumOf
  dsimp only
  split_ifs at hread ⊢ with hmissing
  · exact (Except.ok.inj hread).symm
  · obtain ⟨parsed, hparsed, hmaximum⟩ := bind_eq_ok.mp hread
    obtain ⟨hnumber, -⟩ := readDecimal_eq_ok.mp hparsed
    rw [hnumber, ← pure_eq_ok.mp hmaximum]
    by_cases hzero : parsed = 0
    · simp [hzero, Option.filter]
    · simp [hzero, Option.filter]

theorem parseMarketLot_eq_ok {filters : List (String × Filter)} {lot : DecimalGrid}
    {marketLot : Option DecimalGrid}
    (hparse : parseMarketLot language filters lot = .ok marketLot) :
    (filters.lookup "MARKET_LOT_SIZE" = none ∧ marketLot = none) ∨
      ∃ filter grid, filters.lookup "MARKET_LOT_SIZE" = some filter ∧ marketLot = some grid ∧
        DescribesMarket language filter lot grid := by
  unfold parseMarketLot at hparse
  cases hfilter : filters.lookup "MARKET_LOT_SIZE" with
  | none =>
    rw [hfilter] at hparse
    exact Or.inl ⟨rfl, (pure_eq_ok.mp hparse).symm⟩
  | some filter =>
    rw [hfilter] at hparse
    obtain ⟨grid, hgrid, hsome⟩ := bind_eq_ok.mp hparse
    exact Or.inr ⟨filter, grid, rfl, (pure_eq_ok.mp hsome).symm, describesMarket_of_grid hgrid⟩

theorem describesNotional_new {filters : List (String × Filter)} {filter : Filter}
    {notional : NotionalFilter} (hfilter : filters.lookup "NOTIONAL" = some filter)
    (hparse : newNotional language filter = .ok notional) :
    DescribesNotional language filters notional := by
  unfold newNotional at hparse
  simp only [bind_eq_ok, readDecimal_eq_ok] at hparse
  obtain ⟨minimum, ⟨hminimum, -⟩, maximum, hmaximum, hmake⟩ := hparse
  obtain ⟨rfl, rfl, happlyMin, happlyMax⟩ := NotionalFilter.make_eq_ok hmake
  exact .new filter hfilter hminimum (optionalDecimal_eq_ok hmaximum) happlyMin happlyMax

theorem describesNotional_old {filters : List (String × Filter)} {filter : Filter}
    {notional : NotionalFilter} (hnone : filters.lookup "NOTIONAL" = none)
    (hfilter : filters.lookup "MIN_NOTIONAL" = some filter)
    (hparse : oldNotional language filter = .ok notional) :
    DescribesNotional language filters notional := by
  unfold oldNotional at hparse
  simp only [bind_eq_ok, readDecimal_eq_ok] at hparse
  obtain ⟨minimum, ⟨hminimum, -⟩, hmake⟩ := hparse
  obtain ⟨rfl, hmaximum, happlyMin, -⟩ := NotionalFilter.make_eq_ok hmake
  exact .old filter hnone hfilter hminimum hmaximum happlyMin

theorem describesNotional_of_parse {filters : List (String × Filter)} {notional : NotionalFilter}
    (hparse : parseNotional language filters = .ok notional) :
    DescribesNotional language filters notional := by
  unfold parseNotional at hparse
  cases hfilter : filters.lookup "NOTIONAL" with
  | some filter =>
    rw [hfilter] at hparse
    exact describesNotional_new hfilter hparse
  | none =>
    rw [hfilter] at hparse
    cases hold : filters.lookup "MIN_NOTIONAL" with
    | none =>
      rw [hold] at hparse
      cases hparse
    | some filter =>
      rw [hold] at hparse
      exact describesNotional_old hfilter hold hparse

variable (language) in
/-- The filters of a document say what a parsed symbol holds. -/
structure Parsed (filters : List (String × Filter)) (metadata : SymbolOrderMetadata) : Prop where
  price : ∃ filter, filters.lookup "PRICE_FILTER" = some filter ∧
    Describes language filter "minPrice" "maxPrice" "tickSize" metadata.price
  lot : ∃ filter, filters.lookup "LOT_SIZE" = some filter ∧
    Describes language filter "minQty" "maxQty" "stepSize" metadata.lot
  marketLot : (filters.lookup "MARKET_LOT_SIZE" = none ∧ metadata.marketLot = none) ∨
    ∃ filter grid, filters.lookup "MARKET_LOT_SIZE" = some filter ∧
      metadata.marketLot = some grid ∧ DescribesMarket language filter metadata.lot grid
  notional : DescribesNotional language filters metadata.notional

theorem parseFilters_eq_ok {filters : List (String × Filter)} {price lot : DecimalGrid}
    {marketLot : Option DecimalGrid} {notional : NotionalFilter}
    (hparse : parseFilters language filters = .ok (price, lot, marketLot, notional)) :
    ∃ priceFilter lotFilter, filters.lookup "PRICE_FILTER" = some priceFilter ∧
      filters.lookup "LOT_SIZE" = some lotFilter ∧
      Describes language priceFilter "minPrice" "maxPrice" "tickSize" price ∧
      Describes language lotFilter "minQty" "maxQty" "stepSize" lot ∧
      parseMarketLot language filters lot = .ok marketLot ∧
      parseNotional language filters = .ok notional := by
  unfold parseFilters at hparse
  cases hpriceFilter : filters.lookup "PRICE_FILTER" with
  | none =>
    rw [hpriceFilter] at hparse
    cases hparse
  | some priceFilter =>
    cases hlotFilter : filters.lookup "LOT_SIZE" with
    | none =>
      rw [hpriceFilter, hlotFilter] at hparse
      cases hparse
    | some lotFilter =>
      rw [hpriceFilter, hlotFilter] at hparse
      simp only [bind_eq_ok, pure_eq_ok, Prod.mk.injEq] at hparse
      obtain ⟨_, hprice, _, hlot, _, hmarketLot, _, hnotional, rfl, rfl, rfl, rfl⟩ := hparse
      exact ⟨priceFilter, lotFilter, rfl, rfl, describes_of_grid hprice, describes_of_grid hlot,
        hmarketLot, hnotional⟩

/-- A document that parses has a name and a status, and its filters are those of the symbol. -/
theorem parse_eq_ok {payload : List (String × Json)} {market : Market} {receivedAt : ℚ}
    {sourceHash : String} {metadata : SymbolOrderMetadata}
    (hparse : parseBinanceSymbolMetadata language payload market receivedAt sourceHash =
      .ok metadata) :
    metadata.symbol = symbolOf language payload ∧ metadata.symbol ≠ "" ∧
      ∃ items, Json.get payload "filters" = .list items ∧
        Parsed language (filtersByType language items) metadata := by
  unfold parseBinanceSymbolMetadata at hparse
  simp only [throw_bind, check_eq_ok] at hparse
  obtain ⟨hsymbol, -, hparse⟩ := hparse
  cases hfilters : Json.get payload "filters" with
  | list items =>
    rw [hfilters] at hparse
    obtain ⟨⟨price, lot, marketLot, notional⟩, hparsed, hmetadata⟩ := bind_eq_ok.mp hparse
    obtain rfl := pure_eq_ok.mp hmetadata
    obtain ⟨_, _, hpriceFilter, hlotFilter, hprice, hlot, hmarketLot, hnotional⟩ :=
      parseFilters_eq_ok hparsed
    exact ⟨rfl, hsymbol, items, rfl, ⟨_, hpriceFilter, hprice⟩, ⟨_, hlotFilter, hlot⟩,
      parseMarketLot_eq_ok hmarketLot, describesNotional_of_parse hnotional⟩
  | _ =>
    rw [hfilters] at hparse
    cases hparse

end Parsing

end Bongus.Filters
