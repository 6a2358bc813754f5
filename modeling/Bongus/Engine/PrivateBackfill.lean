import Bongus.Engine.PrivateCursor
import Bongus.Lib.Dictionary
import Mathlib.Data.List.Sort
import Mathlib.Data.Rat.Cast.Order

/-!
# The backfill of a private stream

`backfill_private_stream` of `execution_engine/src/user_data_ws.rs` for one symbol: the orders and
trades of a stretch of time are queried window by window, the orders that are missing one by one
(`collectRows`), and the rows become the events that the stream would have sent
(`buildBackfillEvents`). The quantity that an order had before the trades that were fetched is what
its row says was executed, less those trades.
-/

set_option autoImplicit false
set_option relaxedAutoImplicit false

namespace Bongus.Engine.PrivateBackfill

open Lib.Dictionary Lib.Fallible PrivateCursor

/-! ### Rows -/

/-- An order as the exchange sends it: the fields that can be read as their type. -/
structure OrderRow where
  orderId : Option ℤ
  clientOrderId : Option String := none
  symbol : Option String := none
  status : Option String := none
  side : Option String := none
  executedQty : Option ℚ := none
  cumulativeQuote : Option ℚ := none
  avgPrice : Option ℚ := none
  updateTime : Option ℤ := none
deriving DecidableEq, Repr

structure TradeRow where
  orderId : Option ℤ
  id : Option ℤ
  price : Option ℚ
  qty : Option ℚ
  quoteQty : Option ℚ := none
  commission : Option ℚ := none
  commissionAsset : Option String := none
  realizedPnl : Option ℚ := none
  maker : Option Bool := none
  buyer : Option Bool := none
  time : Option ℤ := none
deriving DecidableEq, Repr

structure BackfillOrder where
  orderId : ℤ
  clientOrderId : String
  symbol : String
  status : String
  side : String
  executedQty : ℚ
  avgPrice : Option ℚ
  updateTimeMs : Option ℤ
deriving DecidableEq, Repr

structure BackfillTrade where
  orderId : ℤ
  tradeId : ℤ
  price : ℚ
  qty : ℚ
  quoteQty : Option ℚ := none
  commission : Option ℚ := none
  commissionAsset : Option String := none
  realizedPnl : Option ℚ := none
  maker : Option Bool := none
  buyer : Option Bool := none
  eventTimeMs : Option ℤ := none
deriving DecidableEq, Repr

def parseBackfillOrder (symbol : String) (row : OrderRow) : Except String BackfillOrder := do
  let orderId ← orThrow row.orderId "backfill order is missing orderId"
  let executedQty := row.executedQty.getD 0
  if executedQty < 0 then
    throw ("backfill order " ++ toString orderId ++ " has negative executedQty")
  let avgPrice := (row.avgPrice.filter (0 < ·)).or
    (row.cumulativeQuote.bind fun quote ↦
      if 0 < executedQty then some (quote / executedQty) else none)
  return {
    orderId
    clientOrderId := row.clientOrderId.getD ""
    symbol := (row.symbol.getD symbol).toUpper
    status := (row.status.getD "UNKNOWN").toUpper
    side := (row.side.getD "").toUpper
    executedQty
    avgPrice
    updateTimeMs := row.updateTime }

def parseBackfillTrade (row : TradeRow) : Except String BackfillTrade := do
  let orderId ← orThrow row.orderId "backfill trade is missing orderId"
  let tradeId ← orThrow row.id "backfill trade is missing id"
  let price ← orThrow (row.price.filter (0 < ·))
    ("backfill trade " ++ toString tradeId ++ " has invalid price")
  let qty ← orThrow (row.qty.filter (0 < ·))
    ("backfill trade " ++ toString tradeId ++ " has invalid qty")
  return {
    orderId
    tradeId
    price
    qty
    quoteQty := row.quoteQty
    commission := row.commission
    commissionAsset := row.commissionAsset
    realizedPnl := row.realizedPnl
    maker := row.maker
    buyer := row.buyer
    eventTimeMs := row.time }

/-! ### Events -/

structure BackfillEvent where
  clientOrderId : String
  symbol : String
  status : String
  filledQty : ℚ
  cumulativeFilledQty : ℚ
  avgFillPrice : Option ℚ
  lastFillPrice : Option ℚ
  cumulativeQuoteQty : Option ℚ
  commission : Option ℚ
  commissionAsset : Option String
  realizedPnl : Option ℚ
  maker : Option Bool
  executionType : String
  eventTimeMs : Option ℤ
  market : UserDataStreamKind
  side : Option String
  orderId : ℤ
  tradeId : Option ℤ
deriving DecidableEq, Repr

def botOrderPrefix : String := "bngs_"

def BackfillOrder.isBot (order : BackfillOrder) : Bool :=
  botOrderPrefix.toList.isPrefixOf order.clientOrderId.toList

abbrev Orders := List (ℤ × BackfillOrder)

/-- A later row of an order replaces an earlier one. -/
def indexOrders (orders : List BackfillOrder) : Orders :=
  orders.foldl (fun index order ↦ assign index order.orderId order) []

/-- The trades of the bot's orders, each once. -/
def selectTrades (orders : Orders) : List BackfillTrade → List (ℤ × ℤ) → List BackfillTrade
  | [], _ => []
  | trade :: rest, seen =>
    if (orders.lookup trade.orderId).any BackfillOrder.isBot ∧
        (trade.orderId, trade.tradeId) ∉ seen then
      trade :: selectTrades orders rest ((trade.orderId, trade.tradeId) :: seen)
    else selectTrades orders rest seen

def BackfillTrade.time (trade : BackfillTrade) : ℤ := trade.eventTimeMs.getD 0

/-- The order of the events: by time, order and trade. -/
def BackfillTrade.Sooner (first second : BackfillTrade) : Prop :=
  first.time < second.time ∨ first.time = second.time ∧
    (first.orderId < second.orderId ∨
      first.orderId = second.orderId ∧ first.tradeId ≤ second.tradeId)

instance : DecidableRel BackfillTrade.Sooner := fun first second ↦
  inferInstanceAs (Decidable (first.time < second.time ∨ first.time = second.time ∧
    (first.orderId < second.orderId ∨
      first.orderId = second.orderId ∧ first.tradeId ≤ second.tradeId)))

def quantityTolerance (executedQty : ℚ) : ℚ := |executedQty| * (1 / 10 ^ 9) + 1 / 10 ^ 12

/-- What an order had before the trades that were fetched. -/
def baseline (orders : Orders) (fetched : ℤ × ℚ) : Except String (ℤ × ℚ × ℚ) := do
  let order ← orThrow (orders.lookup fetched.1)
    ("backfill trade references unknown order " ++ toString fetched.1)
  if order.executedQty + quantityTolerance order.executedQty < fetched.2 then
    throw ("backfill trades exceed exchange cumulative quantity for order " ++
      toString fetched.1)
  let baselineQty := max (order.executedQty - fetched.2) 0
  return (fetched.1, baselineQty, order.avgPrice.getD 0 * baselineQty)

def tradeEvent (kind : UserDataStreamKind) (order : BackfillOrder) (trade : BackfillTrade)
    (cumulativeQty cumulativeQuote : ℚ) : BackfillEvent where
  clientOrderId := order.clientOrderId
  symbol := order.symbol
  status :=
    if order.status = "FILLED" ∧
        |cumulativeQty - order.executedQty| ≤ quantityTolerance order.executedQty then "FILLED"
    else "PARTIALLY_FILLED"
  filledQty := trade.qty
  cumulativeFilledQty := cumulativeQty
  avgFillPrice := order.avgPrice
  lastFillPrice := some trade.price
  cumulativeQuoteQty := some cumulativeQuote
  commission := trade.commission
  commissionAsset := trade.commissionAsset
  realizedPnl := trade.realizedPnl
  maker := trade.maker
  executionType := "TRADE"
  eventTimeMs := trade.eventTimeMs
  market := kind
  side :=
    if order.side = "BUY" ∨ order.side = "SELL" then some order.side
    else trade.buyer.map fun buyer ↦ if buyer then "BUY" else "SELL"
  orderId := trade.orderId
  tradeId := some trade.tradeId

/-- The events of the trades, with the quantities and the quotes of their orders so far. -/
def tradeEvents (kind : UserDataStreamKind) (orders : Orders) :
    List BackfillTrade → List (ℤ × ℚ) → List (ℤ × ℚ) → Except String (List BackfillEvent)
  | [], _, _ => .ok []
  | trade :: rest, quantities, quotes => do
    let order ← orThrow (orders.lookup trade.orderId)
      ("backfill trade references unknown order " ++ toString trade.orderId)
    let quantities := addTo quantities (trade.orderId, trade.qty)
    let quotes := addTo quotes (trade.orderId, trade.quoteQty.getD (trade.price * trade.qty))
    let events ← tradeEvents kind orders rest quantities quotes
    return tradeEvent kind order trade (amount quantities trade.orderId)
      (amount quotes trade.orderId) :: events

def orderEvent (kind : UserDataStreamKind) (order : BackfillOrder) : BackfillEvent where
  clientOrderId := order.clientOrderId
  symbol := order.symbol
  status := order.status
  filledQty := 0
  cumulativeFilledQty := order.executedQty
  avgFillPrice := order.avgPrice
  lastFillPrice := none
  cumulativeQuoteQty := order.avgPrice.map (· * order.executedQty)
  commission := none
  commissionAsset := none
  realizedPnl := none
  maker := none
  executionType := "REST_ORDER_BACKFILL"
  eventTimeMs := order.updateTimeMs
  market := kind
  side := if order.side = "" then none else some order.side
  orderId := order.orderId
  tradeId := none

structure Backfill where
  events : List BackfillEvent
  orderCount : ℕ
  tradeCount : ℕ
deriving DecidableEq, Repr

def buildBackfillEvents (kind : UserDataStreamKind) (symbol : String) (orderRows : List OrderRow)
    (tradeRows : List TradeRow) : Except String Backfill := do
  let parsed ← orderRows.mapM (parseBackfillOrder symbol)
  let orders := indexOrders parsed
  let received ← tradeRows.mapM parseBackfillTrade
  let trades := (selectTrades orders received []).insertionSort BackfillTrade.Sooner
  let fetched := tally (trades.map fun trade ↦ (trade.orderId, trade.qty))
  let baselines ← fetched.mapM (baseline orders)
  let events ← tradeEvents kind orders trades
    (baselines.map fun entry ↦ (entry.1, entry.2.1))
    (baselines.map fun entry ↦ (entry.1, entry.2.2))
  let botOrders := ((orders.map Prod.snd).filter BackfillOrder.isBot).insertionSort
    fun first second ↦ first.orderId ≤ second.orderId
  return ⟨events ++ botOrders.map (orderEvent kind), botOrders.length, trades.length⟩

/-! ### Queries -/

def backfillPageLimit : ℕ := 1000

def backfillWindowMs : ℤ := 24 * 60 * 60 * 1000

/-- The replies of the exchange. A query is known by its number, and the orders that are missing are
looked up in the order in which a hash set gives them. -/
structure Exchange where
  orderHistory : ℕ → ℤ → ℤ → List OrderRow
  userTradeHistory : ℕ → ℤ → ℤ → List TradeRow
  orderById : ℕ → ℤ → OrderRow
  visit : List ℤ → List ℤ
  visit_perm : ∀ ids, (visit ids).Perm ids

def parseJsonRows {Row : Type} (rows : List Row) (label : String) : Except String (List Row) :=
  if backfillPageLimit ≤ rows.length then
    .error (label ++ " returned " ++ toString rows.length ++
      " rows at the page limit; refusing truncated private-stream recovery")
  else .ok rows

/-- The windows of a stretch of time. The sums stay below its end, so that they do not saturate. -/
def windows (windowStart endTimeMs : ℤ) : List (ℤ × ℤ) :=
  if windowStart ≤ endTimeMs then
    let windowEnd := min (windowStart + (backfillWindowMs - 1)) endTimeMs
    if windowEnd = endTimeMs then [(windowStart, windowEnd)]
    else (windowStart, windowEnd) :: windows (windowEnd + 1) endTimeMs
  else []
termination_by (endTimeMs + 1 - windowStart).toNat
decreasing_by
  simp only [backfillWindowMs] at *
  omega

/-- The rows of the windows, those of the orders with the number of their query. -/
def collectWindows (exchange : Exchange) :
    List (ℤ × ℤ) → ℕ → Except String (List (ℕ × OrderRow) × List TradeRow × ℕ)
  | [], query => .ok ([], [], query)
  | (windowStart, windowEnd) :: rest, query => do
    let orderRows ← parseJsonRows (exchange.orderHistory query windowStart windowEnd)
      "order history"
    let tradeRows ← parseJsonRows (exchange.userTradeHistory (query + 1) windowStart windowEnd)
      "trade history"
    let (orders, trades, next) ← collectWindows exchange rest (query + 2)
    return (orderRows.map (query, ·) ++ orders, tradeRows ++ trades, next)

def collectRows (exchange : Exchange) (kind : UserDataStreamKind) (symbol : String)
    (startTimeMs endTimeMs : ℤ) : Except String (List (ℕ × OrderRow) × List TradeRow) := do
  let (orderRows, tradeRows, query) ← collectWindows exchange (windows startTimeMs endTimeMs) 0
  let known := orderRows.filterMap (·.2.orderId)
  let missing := ((tradeRows.filterMap TradeRow.orderId).filter (· ∉ known)).dedup
  if 100 < missing.length then
    throw (kind.asStr ++ " " ++ symbol ++
      " trade history has too many orders outside the bounded order page")
  let found := (exchange.visit missing).zipIdx.map fun (orderId, index) ↦
    (query + index, exchange.orderById (query + index) orderId)
  return (orderRows ++ found, tradeRows)

/-- The backfill of one symbol, with the rows of the orders that it used. -/
def backfillSymbol (exchange : Exchange) (kind : UserDataStreamKind) (symbol : String)
    (startTimeMs endTimeMs : ℤ) : Except String (List (ℕ × OrderRow) × Backfill) := do
  let (orderRows, tradeRows) ← collectRows exchange kind symbol startTimeMs endTimeMs
  let backfill ← buildBackfillEvents kind symbol (orderRows.map Prod.snd) tradeRows
  return (orderRows, backfill)

end Bongus.Engine.PrivateBackfill
