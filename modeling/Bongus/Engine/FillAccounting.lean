import Bongus.Engine.ExecutionState

/-!
# Accounting of fills

How a report of the exchange reaches the books of the engine: the cumulative fill of the order, the
fill of its leg, the tracked position and the commissions. There are two ways in, an update of the
private stream (`accountOrderUpdate`) and the snapshot of an order that has ended
(`applyTerminalOrderSnapshot`). Fills are told apart by the cumulative quantity of their order,
commissions by the trade they belong to.
-/

set_option autoImplicit false
set_option relaxedAutoImplicit false

namespace Bongus.Engine

open Lib Lib.Text ChaseState

/-- An update of an order, as far as it is accounted for. -/
structure OrderUpdate where
  clientOrderId : String
  symbol : String
  status : String
  filledQty : ℚ
  cumulativeFilledQty : Option ℚ := none
  avgFillPrice : Option ℚ := none
  lastFillPrice : Option ℚ := none
  commission : Option ℚ := none
  commissionAsset : Option String := none
  eventTimeMs : Option ℤ := none
  exchangeEventTimeMs : Option ℤ := none
  receiveTimeMs : Option ℤ := none
  persistTimeMs : Option ℤ := none
  market : Option MarketType := none
  orderId : Option ℤ := none
  tradeId : Option ℤ := none

structure TerminalOrderSnapshot where
  status : ExchangeOrderStatus
  cumulativeFilledQty : ℚ
  averageFillPrice : Option ℚ := none

/-- Why the snapshot of an order is not merged: it is behind what was recorded, or it takes its leg
above the target. -/
inductive SnapshotError where
  | regressed (clientOrderId : String) (reported previous : ℚ)
  | overfilled (leg : Leg) (updated target : ℚ)
deriving DecidableEq

/-! ### Positions -/

def tradeSideLabel : TradeSide → String
  | .buy => "LONG"
  | .sell => "SHORT"

def refreshLegPnl (leg : TrackedLegPosition) : TrackedLegPosition :=
  { leg with
    unrealizedPnl :=
      if leg.side = "LONG" then (leg.lastMarkPrice - leg.entryPrice) * leg.quantity
      else if leg.side = "SHORT" then (leg.entryPrice - leg.lastMarkPrice) * leg.quantity
      else 0 }

namespace TrackedPosition

def leg (position : TrackedPosition) : MarketType → Option TrackedLegPosition
  | .spot => position.spot
  | .perp => position.perp

def setLeg (position : TrackedPosition) (market : MarketType)
    (held : Option TrackedLegPosition) : TrackedPosition :=
  match market with
  | .spot => { position with spot := held }
  | .perp => { position with perp := held }

def isEmpty (position : TrackedPosition) : Bool := position.spot.isNone && position.perp.isNone

@[simp] theorem leg_setLeg_self (position : TrackedPosition) (market : MarketType)
    (held : Option TrackedLegPosition) : (position.setLeg market held).leg market = held := by
  cases market <;> rfl

end TrackedPosition

/-- The smallest remainder of a leg that an exit leaves open. -/
def exitRemainder : ℚ := 1 / 10 ^ 8

/-- A leg after a fill: an exit reduces it, an entry adds to it at the average price. -/
def filledLeg (held : Option TrackedLegPosition) (side : TradeSide)
    (filledQty fillPrice lastMarkPrice : ℚ) (isExit : Bool) : Option TrackedLegPosition :=
  match held with
  | some existing =>
    if isExit then
      if filledQty ≥ existing.quantity - exitRemainder then none
      else some (refreshLegPnl
        { existing with
          quantity := existing.quantity - filledQty
          lastMarkPrice := lastMarkPrice })
    else
      let newTotalQty := existing.quantity + filledQty
      some (refreshLegPnl
        { existing with
          entryPrice :=
            if newTotalQty > 0 then
              (existing.entryPrice * existing.quantity + fillPrice * filledQty) / newTotalQty
            else fillPrice
          quantity := if newTotalQty > 0 then newTotalQty else filledQty
          side := tradeSideLabel side
          lastMarkPrice := lastMarkPrice })
  | none =>
    if isExit then none
    else some (refreshLegPnl ⟨tradeSideLabel side, fillPrice, filledQty, 0, lastMarkPrice⟩)

/-! ### Assets -/

def quoteAssets : List String := ["USDT", "USDC", "FDUSD"]

/-- What is left of a text when a suffix of it is cut off. -/
def stripSuffix (text suffix : String) : Option String :=
  if suffix.toList <:+ text.toList then
    some (String.ofList (text.toList.take (text.toList.length - suffix.toList.length)))
  else none

def baseAssetForSymbol (symbol : String) : Option String :=
  (quoteAssets.findSome? (stripSuffix symbol)).filter (· ≠ "")

def quoteAssetForSymbol (symbol : String) : Option String :=
  quoteAssets.find? fun quote ↦ decide (quote.toList <:+ symbol.toList)

/-! ### Commissions -/

structure CommissionObservation where
  symbol : String
  clientOrderId : String
  market : MarketType
  amount : ℚ
  asset : String
  orderId : Option ℤ
  tradeId : Option ℤ

namespace ExecutionState

variable (env : Environment) (manager : ExecutionState)

/-- A position with nothing left in it is forgotten. -/
def keepPosition (symbol : String) (position : TrackedPosition) : ExecutionState :=
  { manager with
    trackedPositions :=
      if position.isEmpty then manager.trackedPositions.erase symbol
      else manager.trackedPositions.insert symbol position }

def midPrice (market : MarketType) (symbol : String) : Option ℚ :=
  match market with
  | .spot => manager.spotMidCache.lookup symbol
  | .perp => manager.perpMidCache.lookup symbol

def applyFillToPosition (symbol : String) (market : MarketType) (side : TradeSide)
    (filledQty fillPrice : ℚ) (isExit : Bool) : ExecutionState :=
  if filledQty ≤ 0 then manager
  else
    let symUpper := env.toUppercase symbol
    let lastMarkPrice := (manager.midPrice market symUpper).getD fillPrice
    let position := (manager.trackedPositions.lookup symUpper).getD { symbol := symUpper }
    manager.keepPosition symUpper (position.setLeg market
      (filledLeg (position.leg market) side filledQty fillPrice lastMarkPrice isExit))

/-- The cycle of the first chase that has the order, or the order itself. -/
def commissionCycle (clientOrderId : String) : String :=
  match manager.chaseStates.findBy (env.order manager.asked) fun _ chase ↦
      (chase.legForClientOrderId clientOrderId).isSome with
  | some (_, chase) => chase.cycleClientOrderId
  | none => clientOrderId

def recordCommission (identity : CommissionIdentity) (fingerprint : CommissionFingerprint)
    (cycleClientOrderId : String) : ExecutionState :=
  { manager with
    appliedCommissionKeys := manager.appliedCommissionKeys.insert identity fingerprint
    commissionCycles := manager.commissionCycles.insert identity cycleClientOrderId }

/-- A commission in the base asset is taken out of the spot inventory. Whether it took all of it is
part of the result. -/
def deductBaseCommission (symbol : String) (amount : ℚ) : Except String (Bool × ExecutionState) :=
  match manager.trackedPositions.lookup symbol with
  | none => .error "BASE_COMMISSION_WITHOUT_POSITION"
  | some position =>
    match position.spot with
    | none => .error "BASE_COMMISSION_WITHOUT_SPOT_INVENTORY"
    | some spot =>
      let remaining := spot.quantity - amount
      if remaining < 0 then .error "BASE_COMMISSION_EXCEEDS_SPOT_INVENTORY"
      else if remaining = 0 then
        .ok (true, manager.keepPosition symbol { position with spot := none })
      else
        .ok (false, manager.keepPosition symbol
          { position with spot := some (refreshLegPnl { spot with quantity := remaining }) })

/-- A commission that was not applied yet. In the base asset it is taken out of the spot inventory,
in an asset of no known value it is recorded all the same. -/
def chargeCommission (market : MarketType) (symUpper : String) (identity : CommissionIdentity)
    (fingerprint : CommissionFingerprint) (cycle : String) : ExecutionState × Option String :=
  match baseAssetForSymbol symUpper, quoteAssetForSymbol symUpper with
  | some baseAsset, some quoteAsset =>
    if fingerprint.asset ≠ baseAsset ∧ fingerprint.asset ≠ quoteAsset ∧
        fingerprint.asset ∉ ["BNB", "USDT", "USDC", "FDUSD"] then
      ({ manager with
          unvaluedCommissionAssets := insert fingerprint.asset manager.unvaluedCommissionAssets
        }.recordCommission identity fingerprint cycle, some "UNKNOWN_COMMISSION_ASSET")
    else if market = .spot ∧ fingerprint.asset = baseAsset then
      match manager.deductBaseCommission symUpper fingerprint.amount with
      | .error reason => (manager, some reason)
      | .ok (exhausted, deducted) =>
        (deducted.recordCommission identity fingerprint cycle,
          if exhausted then some "BASE_COMMISSION_EXHAUSTED_SPOT_INVENTORY" else none)
    else (manager.recordCommission identity fingerprint cycle, none)
  | _, _ => (manager, some "COMMISSION_SYMBOL_ASSET_UNKNOWN")

/-- A commission is applied once for its trade. The second part is the refusal, if there is one. -/
def applyCommissionOnce (observation : CommissionObservation) : ExecutionState × Option String :=
  if observation.amount < 0 then (manager, some "INVALID_COMMISSION_AMOUNT")
  else if observation.amount = 0 then (manager, none)
  else
    let asset := (trim unicodeBlank observation.asset).toUpper
    if asset = "" then (manager, some "COMMISSION_ASSET_MISSING")
    else
      match observation.orderId, observation.tradeId with
      | some orderId, some tradeId =>
        if orderId < 0 ∨ tradeId < 0 then (manager, some "COMMISSION_IDENTITY_INVALID")
        else if isBlank unicodeBlank observation.clientOrderId then
          (manager, some "COMMISSION_CLIENT_ORDER_ID_MISSING")
        else
          let symUpper := observation.symbol.toUpper
          let identity := ⟨observation.market, symUpper, orderId, tradeId⟩
          let fingerprint := ⟨asset, observation.amount⟩
          match manager.appliedCommissionKeys.lookup identity with
          | some existing =>
            (manager,
              if existing = fingerprint then none else some "COMMISSION_IDENTITY_CONFLICT")
          | none =>
            manager.chargeCommission observation.market symUpper identity fingerprint
              (manager.commissionCycle env observation.clientOrderId)
      | _, _ => (manager, some "COMMISSION_IDENTITY_MISSING")

/-! ### Updates of the private stream -/

/-- The cumulative fill recorded for an order. -/
def recorded (clientOrderId : String) : ℚ :=
  (manager.orderCumulativeFills.lookup clientOrderId).getD 0

def setRecorded (clientOrderId : String) (cumulative : ℚ) : ExecutionState :=
  { manager with
    orderCumulativeFills := manager.orderCumulativeFills.insert clientOrderId cumulative }

end ExecutionState

namespace OrderUpdate

variable (update : OrderUpdate)

def parsedStatus : Option ExchangeOrderStatus := ExchangeOrderStatus.parse update.status

def isFilled : Bool := update.parsedStatus.any ExchangeOrderStatus.isFilled

def isPartial : Bool := update.parsedStatus.any ExchangeOrderStatus.isPartial

/-- The cumulative quantity an update reports, or the one its fill leads to. -/
def reportedCumulative (previous : ℚ) : ℚ :=
  update.cumulativeFilledQty.getD
    (if update.isFilled ∨ update.isPartial then previous + max update.filledQty 0 else previous)

def observedFillPrice : Option ℚ := update.lastFillPrice.or update.avgFillPrice

/-- The orders of the bot are known by how their names begin. -/
def isBotOrder : Bool := "bngs_".toList.isPrefixOf update.clientOrderId.toList

end OrderUpdate

/-- Where the accounting of an update leads. -/
structure Progress where
  chase : Option ChaseState := none
  recoveredFromTerminalTombstone : Bool := false
  matchedLegWasTerminal : Bool := false
  matchedEffectiveFillQty : ℚ := 0
  cycleImbalance : ℚ := 0
  reconciliationReason : Option String := none
  unknownBotFillDelta : ℚ := 0
  matchedMarket : Option MarketType := none

/-- The price of a leg after a fill, averaged over the quantities. -/
def blendedFillPrice (prior : Option ℚ) (previous fillPrice filledQty updated tolerance : ℚ) : ℚ :=
  if updated > tolerance then (prior.getD fillPrice * previous + fillPrice * filledQty) / updated
  else fillPrice

namespace ExecutionState

variable (env : Environment) (manager : ExecutionState) (update : OrderUpdate)

/-- A fill of a bot order that no chase has is recorded and waits for a reconciliation. -/
def accountUnknownOrder : ExecutionState × Progress :=
  let previous := manager.recorded update.clientOrderId
  let reported := update.reportedCumulative previous
  if reported + 1 / 10 ^ 12 ≥ previous then
    (manager.setRecorded update.clientOrderId reported,
      { unknownBotFillDelta := max (reported - previous) 0 })
  else (manager, { reconciliationReason := some "UNKNOWN_ORDER_INVALID_FILL_PROGRESS" })

/-- The books of a leg after a fill that is above the tolerance. -/
def applyLegFill (symbol : String) (chase : ChaseState) (leg : Leg) (filledQty : ℚ) :
    ChaseState × ExecutionState :=
  if filledQty > chase.tolerance leg then
    let previous := chase.cumulativeFor leg
    let fillPrice := update.observedFillPrice.getD (chase.expectedPriceFor leg)
    (chase.setFillPrice (blendedFillPrice (chase.fillPriceFor leg) previous fillPrice filledQty
        (previous + filledQty) (chase.tolerance leg)) leg,
      manager.applyFillToPosition env symbol leg.market (chase.sideFor leg) filledQty fillPrice
        chase.isExit)
  else (chase, manager)

/-- The clock that runs while the two legs are out of balance. -/
def trackImbalance (symbol : String) (chase : ChaseState) : ExecutionState :=
  { manager with
    chaseUnhedgedStartedAtMs :=
      if |chase.spotCumulativeFilled - chase.futuresCumulativeFilled| > chase.cycleTolerance then
        if (manager.chaseUnhedgedStartedAtMs.lookup symbol).isSome then
          manager.chaseUnhedgedStartedAtMs
        else manager.chaseUnhedgedStartedAtMs.insert symbol
          (update.eventTimeMs.getD (env.nowMs manager.asked))
      else manager.chaseUnhedgedStartedAtMs.erase symbol }

/-- The books after a report that is not stale: the quantity of the order, the leg and the
position move by as much as the report is ahead. -/
def bookLegFill (symbol : String) (chase : ChaseState) (leg : Leg) (reported : ℚ) :
    ExecutionState × Progress :=
  let tolerance := chase.tolerance leg
  let previous := manager.recorded update.clientOrderId
  let effective := max (reported - previous) 0
  let noted :=
    if reported > previous then manager.setRecorded update.clientOrderId reported else manager
  let updated := chase.cumulativeFor leg + effective
  let (priced, booked) := noted.applyLegFill env update symbol chase leg effective
  let targetReached := |updated - chase.targetFor leg| ≤ tolerance
  let progressed := priced.setProgress leg updated (update.isFilled && decide targetReached)
  (booked.trackImbalance env update symbol progressed,
    { chase := some progressed
      matchedLegWasTerminal := chase.terminalFor leg
      matchedEffectiveFillQty := effective
      cycleImbalance := |progressed.spotCumulativeFilled - progressed.futuresCumulativeFilled|
      matchedMarket := some leg.market
      reconciliationReason :=
        if updated > chase.targetFor leg + tolerance then some "LEG_OVERFILL"
        else if update.isFilled ∧ ¬ targetReached then some "TERMINAL_FILL_QUANTITY_MISMATCH"
        else none })

/-- The fill of an order of a chase. A report that is behind the recorded quantity by more than the
tolerance is stale, and the update is dropped as a whole. -/
def accountLegFill (symbol : String) (chase : ChaseState) (leg : Leg) :
    Option (ExecutionState × Progress) :=
  let tolerance := chase.tolerance leg
  let previous := manager.recorded update.clientOrderId
  let reported := update.reportedCumulative previous
  if reported < -tolerance ∨ update.filledQty < -tolerance then
    some (manager,
      { chase := some chase
        matchedMarket := some leg.market
        reconciliationReason := some "INVALID_FILL_QUANTITY" })
  else if reported + tolerance < previous then none
  else some (manager.bookLegFill env update symbol chase leg reported)

def stampTimes (chase : ChaseState) : ChaseState :=
  { chase with
    lastExchangeEventTimeMs := update.exchangeEventTimeMs.or update.eventTimeMs
    lastReceiveTimeMs := update.receiveTimeMs.or update.eventTimeMs
    lastPersistTimeMs := update.persistTimeMs }

/-- The fill of an update, against the chase of its symbol. -/
def accountFill : Option ChaseState → Option (ExecutionState × Progress)
  | none => some
      (if update.isBotOrder then manager.accountUnknownOrder update else (manager, {}))
  | some chase =>
    let stamped := stampTimes update chase
    match stamped.legForClientOrderId update.clientOrderId with
    | none => some (manager, { chase := some stamped })
    | some leg =>
      manager.accountLegFill env update (env.toUppercase update.symbol) stamped leg

/-- The commission of an update, once its fill is accounted for. -/
def accountCommission (progress : Progress) : ExecutionState × Progress :=
  match update.commission with
  | none => (manager, progress)
  | some amount =>
    if amount = 0 then (manager, progress)
    else
      let market := (progress.matchedMarket.or update.market).or
        ((manager.orderLineage.lookup update.clientOrderId).bind fun lineage ↦ lineage.market)
      match market with
      | none =>
        (manager,
          { progress with
            reconciliationReason :=
              progress.reconciliationReason.or (some "COMMISSION_MARKET_UNKNOWN") })
      | some market =>
        let (applied, refusal) := manager.applyCommissionOnce env
          { symbol := env.toUppercase update.symbol
            clientOrderId := update.clientOrderId
            market := market
            amount := amount
            asset := update.commissionAsset.getD ""
            orderId := update.orderId
            tradeId := update.tradeId }
        (applied,
          { progress with
            reconciliationReason := progress.reconciliationReason.or refusal })

/-- The status an update leaves with its order. A fill that no chase has stays open. -/
def noteOrderStatus (progress : Progress) : ExecutionState :=
  let status :=
    if progress.unknownBotFillDelta > 1 / 10 ^ 12 then "UNATTRIBUTED_FILLED" else update.status
  { manager with
    internalOrders := manager.internalOrders.insert update.clientOrderId
      (match manager.internalOrders.lookup update.clientOrderId with
      | some order => { order with status := status }
      | none => ⟨update.clientOrderId, update.symbol, status, none⟩) }

/-- The chase of a symbol, brought back from its tombstone if there is none. -/
def chaseFor (symbol : String) : Option ChaseState × Bool × ExecutionState :=
  match manager.chaseStates.lookup symbol with
  | some chase => (some chase, false, manager)
  | none =>
    if update.isBotOrder then
      match manager.recoverChaseFromTerminalTombstone env symbol update.clientOrderId with
      | some (recovered, next) => (some recovered, true, next)
      | none => (none, false, manager)
    else (none, false, manager)

/-- The chase of an update is held. One that was brought back keeps its tombstone up to date. -/
def holdChase (symbol : String) (recovered : Bool) : Option ChaseState → ExecutionState
  | none => manager
  | some chase =>
    let held := { manager with chaseStates := manager.chaseStates.insert symbol chase }
    if recovered then
      held.ensureTerminalTombstone env chase "EXCHANGE_FLAT_AWAITING_TERMINAL"
        "LATE_FILL_REPAIR_REQUIRED" "late private fill applied to retained terminal lineage"
    else held

/-- The accounting of an update: the state and where it leads, or only the state if the update was
dropped. -/
def accountOrderUpdate : ExecutionState × Option Progress :=
  let symbol := env.toUppercase update.symbol
  let (chase, recovered, found) := manager.chaseFor env update symbol
  match found.accountFill env update chase with
  | none => (found, none)
  | some (filled, progress) =>
    let (paid, settled) := filled.accountCommission env update progress
    let noted := paid.noteOrderStatus update settled
    (noted.holdChase env symbol recovered settled.chase,
      some { settled with recoveredFromTerminalTombstone := recovered })

/-! ### Snapshots of orders that have ended -/

/-- The snapshot of an order that has ended is merged into the chase. What went wrong is the last
part of the result. -/
def applyTerminalOrderSnapshot (chase : ChaseState) (leg : Leg) (clientOrderId : String)
    (snapshot : TerminalOrderSnapshot) : ExecutionState × ChaseState × Except SnapshotError Unit :=
  let previous := manager.recorded clientOrderId
  let target := chase.targetFor leg
  let tolerance := chase.tolerance leg
  if snapshot.cumulativeFilledQty + tolerance < previous then
    (manager, chase, .error (.regressed clientOrderId snapshot.cumulativeFilledQty previous))
  else
    let delta := max (snapshot.cumulativeFilledQty - previous) 0
    let fillPrice := snapshot.averageFillPrice.getD (chase.expectedPriceFor leg)
    let booked :=
      if delta > tolerance then
        manager.applyFillToPosition env chase.symbol leg.market (chase.sideFor leg) delta fillPrice
          chase.isExit
      else manager
    let priced := if delta > tolerance then chase.setFillPrice fillPrice leg else chase
    let noted := booked.setRecorded clientOrderId snapshot.cumulativeFilledQty
    let updated := chase.cumulativeFor leg + delta
    if updated > target + tolerance then
      (noted, priced, .error (.overfilled leg updated target))
    else
      let targetReached := |updated - target| ≤ tolerance
      ({ noted with
          internalOrders :=
            match noted.internalOrders.lookup clientOrderId with
            | some order =>
              noted.internalOrders.insert clientOrderId
                { order with status := snapshot.status.asStr }
            | none => noted.internalOrders },
        priced.setProgress leg updated (snapshot.status.isFilled && decide targetReached), .ok ())

end ExecutionState

end Bongus.Engine
