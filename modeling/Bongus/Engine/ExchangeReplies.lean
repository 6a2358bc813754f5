import Bongus.Engine.FillAccounting
import Bongus.Num.DecimalArithmetic

/-!
# What the exchange replies

The readers of exact quantities in `execution_engine/src/order_manager.rs`: balances, positions and
orders are read from the rows of a reply, and a decimal is taken only in its canonical text. The
filters of a symbol bound the quantity of an order, which is rounded down to an increment of both of
its step sizes.
-/

set_option autoImplicit false
set_option relaxedAutoImplicit false

namespace Bongus.Engine

open Lib Lib.Text Lib.Fallible Num ExactDecimal

inductive LegVenue where
  | spot
  | usdtFutures
deriving DecidableEq, Repr

def Leg.venue : Leg → LegVenue
  | .spot => .spot
  | .futures => .usdtFutures

/-! ### Decimals -/

def parseCanonicalExchangeDecimal (node : Option String) (field : String) (allowNegative : Bool) :
    Except String ExactDecimal := do
  let raw ← orThrow node (field ++ " must be an exact decimal string")
  let value ← (fromStr raw).mapError fun error ↦
    field ++ " is not a supported decimal: " ++ error
  if value.display ≠ raw then throw (field ++ " is not canonical")
  if ¬ allowNegative ∧ value.cmp zero = .lt then throw (field ++ " must be non-negative")
  return value

/-- A name without the blanks around it, if anything is left of it. -/
def trimmedName (name : Option String) : Option String :=
  (name.map (trim unicodeBlank)).filter (· ≠ "")

/-! ### Balances and positions -/

structure BalanceRow where
  asset : Option String
  free : Option String
  locked : Option String

structure ExactSpotAccountBalances where
  total : HashMap String ExactDecimal := ∅
  available : HashMap String ExactDecimal := ∅

def addBalance (balances : ExactSpotAccountBalances) (row : BalanceRow) :
    Except String ExactSpotAccountBalances := do
  let asset ← orThrow (trimmedName row.asset) "exact spot balance row is missing asset"
  let free ← parseCanonicalExchangeDecimal row.free ("spot balance " ++ asset ++ " free") false
  let locked ← parseCanonicalExchangeDecimal row.locked
    ("spot balance " ++ asset ++ " locked") false
  let combined ← orThrow (free.checkedAdd locked)
    ("spot balance " ++ asset ++ " exact total overflowed")
  if (balances.total.lookup asset).isSome ∨ (balances.available.lookup asset).isSome then
    throw ("exact spot account contains duplicate balance for " ++ asset)
  return ⟨balances.total.insert asset combined, balances.available.insert asset free⟩

def parseExactSpotAccountBalances (rows : List BalanceRow) :
    Except String ExactSpotAccountBalances :=
  rows.foldlM addBalance {}

structure PositionRow where
  symbol : Option String
  positionAmt : Option String
  positionSide : Option String

/-- The positions that were read, and the long and short quantities of hedge mode. -/
structure ExactPositions where
  positions : HashMap String ExactDecimal := ∅
  hedgeModeGross : HashMap String (ExactDecimal × ExactDecimal) := ∅

def addHedgeRow (gross : ExactDecimal × ExactDecimal) (symbol positionSide : String)
    (quantity : ExactDecimal) : Except String (ExactDecimal × ExactDecimal) :=
  if positionSide = "LONG" then do
    if quantity.cmp zero = .lt then
      throw ("futures position " ++ symbol ++ " LONG row has negative positionAmt")
    let long ← orThrow (gross.1.checkedAdd quantity) "exact futures LONG quantity overflowed"
    return (long, gross.2)
  else if positionSide = "SHORT" then do
    if quantity.cmp zero = .gt then
      throw ("futures position " ++ symbol ++ " SHORT row has positive positionAmt")
    let absolute ← orThrow (exactAbs quantity) "exact futures SHORT quantity overflowed"
    let short ← orThrow (gross.2.checkedAdd absolute) "exact futures SHORT quantity overflowed"
    return (gross.1, short)
  else if positionSide = "BOTH" then .ok gross
  else
    .error ("futures position " ++ symbol ++ " has unsupported positionSide " ++ positionSide)

def addPosition (toUppercase : String → String) (read : ExactPositions) (row : PositionRow) :
    Except String ExactPositions := do
  let name ← orThrow (trimmedName row.symbol) "exact futures position row is missing symbol"
  let symbol := toUppercase name
  let quantity ← parseCanonicalExchangeDecimal row.positionAmt
    ("futures position " ++ symbol ++ " positionAmt") true
  let positionSide := (trim unicodeBlank (row.positionSide.getD "BOTH")).toUpper
  let gross ← addHedgeRow ((read.hedgeModeGross.lookup symbol).getD (zero, zero)) symbol
    positionSide quantity
  let sum ← orThrow (((read.positions.lookup symbol).getD zero).checkedAdd quantity)
    "exact futures position sum overflowed"
  return ⟨read.positions.insert symbol sum,
    if positionSide = "BOTH" then read.hedgeModeGross
    else read.hedgeModeGross.insert symbol gross⟩

/-- The positions of a reply. `order` is the order in which the symbols are visited. -/
def parseExactFuturesPositions (toUppercase : String → String) (order : String → ℕ)
    (rows : List PositionRow) : Except String (HashMap String ExactDecimal) := do
  let read ← rows.foldlM (addPosition toUppercase) {}
  match read.hedgeModeGross.findBy order fun _ gross ↦
      decide (gross.1.cmp zero = .gt ∧ gross.2.cmp zero = .gt) with
  | some (symbol, _) =>
    throw ("futures position " ++ symbol ++
      " has simultaneous LONG and SHORT hedge-mode exposure")
  | none => return read.positions.retain fun _ quantity ↦ quantity ≠ zero

/-! ### Orders -/

/-- An order as a reply shows it, with the first of the two names its identifier can have. -/
structure OrderReply where
  clientOrderId : Option String
  status : Option String
  executedQty : Option String

structure ExactOrderSnapshot where
  status : ExchangeOrderStatus
  cumulativeFilledQty : ExactDecimal

def parseExactOrderSnapshot (reply : OrderReply) (expectedClientOrderId : String) :
    Except String ExactOrderSnapshot := do
  let observedClientId ← orThrow reply.clientOrderId "exact order response is missing client id"
  if observedClientId ≠ expectedClientOrderId then
    throw ("exact order response client id mismatch: expected " ++ expectedClientOrderId ++
      ", got " ++ observedClientId)
  let statusRaw ← orThrow reply.status "exact order response is missing status"
  let status ← orThrow (ExchangeOrderStatus.parse statusRaw)
    ("unsupported exact order status " ++ statusRaw)
  let cumulativeFilledQty ← parseCanonicalExchangeDecimal reply.executedQty "order executedQty"
    false
  return ⟨status, cumulativeFilledQty⟩

/-- A row of a list of open orders. -/
structure OpenOrderRow where
  symbol : Option String
  clientOrderId : Option String
deriving DecidableEq

/-! ### Filters -/

/-- The bounds that the exchange sets to the quantities of one market, in general and for market
orders. The step sizes are read from texts. -/
structure QuantityFilters where
  stepSize : ExactDecimal
  marketStepSize : ExactDecimal
  minQty : ExactDecimal
  marketMinQty : ExactDecimal
  maxQty : ExactDecimal
  marketMaxQty : ExactDecimal
  scale_stepSize : stepSize.scale ≤ maxParsedScale
  scale_marketStepSize : marketStepSize.scale ≤ maxParsedScale

/-- The filters of a symbol that the exchange has not described. -/
def QuantityFilters.unknown : QuantityFilters where
  stepSize := ⟨1, 1⟩
  marketStepSize := ⟨1, 1⟩
  minQty := ⟨1, 1⟩
  marketMinQty := ⟨1, 1⟩
  maxQty := ⟨2 ^ 127 - 1, 0⟩
  marketMaxQty := ⟨2 ^ 127 - 1, 0⟩
  scale_stepSize := by decide
  scale_marketStepSize := by decide

structure ExchangeSymbolInfo where
  spot : QuantityFilters
  futures : QuantityFilters

def ExchangeSymbolInfo.filters (info : ExchangeSymbolInfo) : MarketType → QuantityFilters
  | .spot => info.spot
  | .perp => info.futures

def symbolInfo (exchangeInfo : HashMap String ExchangeSymbolInfo) (symbol : String) :
    ExchangeSymbolInfo :=
  (exchangeInfo.lookup symbol).getD ⟨.unknown, .unknown⟩

def normalizeExactQuantity (filters : QuantityFilters) (requestedQuantity : ExactDecimal) :
    Option ExactDecimal := do
  let increment ← filters.stepSize.checkedCommonIncrement filters.marketStepSize
  let normalized ← requestedQuantity.floorToIncrement increment
  if normalized.cmp (ExactDecimal.max filters.minQty filters.marketMinQty) ≠ .lt ∧
      normalized.cmp (ExactDecimal.min filters.maxQty filters.marketMaxQty) ≠ .gt then
    some normalized
  else none

def normalizeExactQuantityForMarket (exchangeInfo : HashMap String ExchangeSymbolInfo)
    (symbol : String) (market : MarketType) (requestedQuantity : ExactDecimal) :
    Option ExactDecimal :=
  normalizeExactQuantity ((symbolInfo exchangeInfo symbol).filters market) requestedQuantity

end Bongus.Engine
