import Mathlib.Data.String.Basic
import Bongus.Engine.Chase
import Bongus.Engine.OrderManager

/-!
# The durable state of the execution engine

The part of `OrderManager` that its snapshots hold: the chases, their orders and fills, the tracked
positions and commissions, and what is retained of chases that ended. A chase that ends is published
once (`emitCycleOrderUpdate`), leaves a tombstone (`ensureTerminalTombstone`) and is removed
(`removeChaseState`); an order of it that reports later brings it back
(`recoverChaseFromTerminalTombstone`). Every write of a snapshot can fail, and `Environment` says
which do.
-/

set_option autoImplicit false
set_option relaxedAutoImplicit false

namespace Bongus.Engine

open Lib Lib.Text

structure InternalOrder where
  clientOrderId : String
  symbol : String
  status : String
  limitPrice : Option ℚ
deriving DecidableEq

structure OrderLineage where
  intentId : Option String := none
  market : Option MarketType := none
deriving DecidableEq

structure TrackedLegPosition where
  side : String
  entryPrice : ℚ
  quantity : ℚ
  unrealizedPnl : ℚ
  lastMarkPrice : ℚ
deriving DecidableEq

structure TrackedPosition where
  symbol : String
  spot : Option TrackedLegPosition := none
  perp : Option TrackedLegPosition := none
deriving DecidableEq

/-- A commission by the trade it was paid for: the text `venue:symbol:order:trade`, whose parts can
be read back from it. -/
structure CommissionIdentity where
  venue : MarketType
  symbol : String
  orderId : ℤ
  tradeId : ℤ
deriving DecidableEq

/-- What was paid: the text `asset:amount`. -/
structure CommissionFingerprint where
  asset : String
  amount : ℚ
deriving DecidableEq

/-- What is retained of a chase that ended. -/
structure TerminalLifecycleTombstone where
  symbol : String
  cycleClientOrderId : String
  intentId : Option String
  lifecycleState : String
  terminalSequenceWatermark : ℕ
  reconciliationStatus : String
  tombstonedAtMs : ℤ
  retentionDeadlineMs : ℤ
  reason : String
  clientOrderIds : List String
  chaseState : ChaseState
  internalOrders : HashMap String InternalOrder
  orderCumulativeFills : HashMap String ℚ
  orderLineage : HashMap String OrderLineage

/-- The event that says how a chase ended. -/
structure TerminalPublication where
  publicationId : String
  event : String := "OrderUpdate"
  symbol : String
  status : String
  filledQty : ℚ
  clientOrderId : String
  maker : Bool
  executionType : String
  eventTimeMs : ℤ
  isExit : Bool
  singleLeg : Bool
  spotTargetQuantity : ℚ
  futuresTargetQuantity : ℚ
  spotCumulativeFilledQuantity : ℚ
  futuresCumulativeFilledQuantity : ℚ
deriving DecidableEq

structure SymbolPersistenceLatch where
  symbol : String
  reason : String
  firstFailedAtMs : ℤ
  lastFailedAtMs : ℤ
  failureCount : ℕ
  lastError : String
deriving DecidableEq

structure ExecutionState where
  state : SystemState := .trading
  paper : Bool := false
  chaseStates : HashMap String ChaseState := ∅
  internalOrders : HashMap String InternalOrder := ∅
  chaseIntentIds : HashMap String String := ∅
  orderCumulativeFills : HashMap String ℚ := ∅
  orderLineage : HashMap String OrderLineage := ∅
  chaseUnhedgedBudgets : HashMap String ℚ := ∅
  chaseUnhedgedStartedAtMs : HashMap String ℤ := ∅
  trackedPositions : HashMap String TrackedPosition := ∅
  spotMidCache : HashMap String ℚ := ∅
  perpMidCache : HashMap String ℚ := ∅
  appliedCommissionKeys : HashMap CommissionIdentity CommissionFingerprint := ∅
  commissionCycles : HashMap CommissionIdentity String := ∅
  unvaluedCommissionAssets : Finset String := ∅
  cycleDeadlines : HashMap String ℤ := ∅
  terminalTombstones : HashMap String TerminalLifecycleTombstone := ∅
  terminalPublications : HashMap String TerminalPublication := ∅
  terminalSequenceWatermark : ℕ := 0
  symbolPersistenceLatches : HashMap String SymbolPersistenceLatch := ∅
  asked : ℕ := 0

/-- What the engine finds outside of its state: the mapping to upper case, the hexadecimal digest of
a text, and, by how often it has asked, the clock, the outcome of writing a snapshot and of moving
an acknowledgement, and the order in which a map is visited. -/
structure Environment where
  toUppercase : String → String
  toUpper_toUppercase : ∀ text, (toUppercase text).toUpper = toUppercase text
  toUppercase_toUppercase : ∀ text, toUppercase (toUppercase text) = toUppercase text
  sha256 : String → String
  nowMs : ℕ → ℤ
  persisted : ℕ → Except String Unit
  acknowledged : ℕ → Bool
  order : ℕ → String → ℕ

/-- An environment in which nothing fails and no time passes. -/
def Environment.calm : Environment where
  toUppercase := String.toUpper
  toUpper_toUppercase := toUpper_toUpper
  toUppercase_toUppercase := toUpper_toUpper
  sha256 text := text
  nowMs _ := 1
  persisted _ := .ok ()
  acknowledged _ := true
  order _ _ := 0

def saturatingSucc (n : ℕ) : ℕ := min (n + 1) (2 ^ 64 - 1)

def terminalTombstoneRetentionMs : ℤ := 30 * 24 * 60 * 60 * 1000

/-- The sum of two times, kept within the range of a signed 64-bit integer. -/
def saturatingAddMs (x y : ℤ) : ℤ := max (-2 ^ 63) (min (x + y) (2 ^ 63 - 1))

/-- The orders of a chase that have a name, sorted. -/
def chaseClientOrderIds (chase : ChaseState) : List String :=
  ((chase.spotOrderAliases ++ chase.futuresOrderAliases ++
      [chase.spotClientOrderId, chase.futuresClientOrderId]).filter
    fun clientOrderId ↦ ¬ isBlank unicodeBlank clientOrderId).dedup.insertionSort (· ≤ ·)

namespace ExecutionState

variable (env : Environment) (manager : ExecutionState)

/-- Some entry of a map has a property. -/
def anyEntry {α : Type} (m : HashMap String α) (found : String → α → Bool) : Bool :=
  (m.findBy (env.order manager.asked) found).isSome

/-! ### Tombstones and what they retain -/

def isExpired (nowMs : ℤ) (tombstone : TerminalLifecycleTombstone) : Bool :=
  tombstone.retentionDeadlineMs ≤ nowMs

/-- A tombstone past its retention is marked, and the mark has its own place in the sequence. -/
def expireTombstone (nowMs : ℤ)
    (held : HashMap String TerminalLifecycleTombstone × ℕ) (cycleId : String) :
    HashMap String TerminalLifecycleTombstone × ℕ :=
  match held.1.lookup cycleId with
  | none => held
  | some tombstone =>
    if isExpired nowMs tombstone then
      let changed := tombstone.lifecycleState ≠ "RETAINED_PRUNED" ∨
        tombstone.reconciliationStatus ≠ "RETENTION_EXPIRED"
      let watermark := if changed then max (saturatingSucc held.2) 1 else held.2
      (held.1.insert cycleId
        { tombstone with
          terminalSequenceWatermark :=
            if changed then watermark else tombstone.terminalSequenceWatermark
          lifecycleState := "RETAINED_PRUNED"
          reconciliationStatus := "RETENTION_EXPIRED" }, watermark)
    else held

/-- The orders that only tombstones past their retention know. -/
def isReleased (nowMs : ℤ) (clientOrderId : String) : Bool :=
  manager.anyEntry env manager.terminalTombstones
      (fun _ tombstone ↦ isExpired nowMs tombstone && clientOrderId ∈ tombstone.clientOrderIds) &&
    !manager.anyEntry env manager.terminalTombstones
      (fun _ tombstone ↦ !isExpired nowMs tombstone && clientOrderId ∈ tombstone.clientOrderIds) &&
    !manager.anyEntry env manager.chaseStates
      (fun _ chase ↦ clientOrderId ∈ chaseClientOrderIds chase)

def pruneResolvedExecutionArtifacts : ExecutionState :=
  let nowMs := env.nowMs manager.asked
  let expired := (manager.terminalTombstones.keysBy (env.order manager.asked)).foldl
    (expireTombstone nowMs) (manager.terminalTombstones, manager.terminalSequenceWatermark)
  let internalOrders := manager.internalOrders.retain fun clientOrderId order ↦
    !manager.isReleased env nowMs clientOrderId || !isTerminalInternalStatus order.status
  { manager with
    terminalTombstones := expired.1
    terminalSequenceWatermark := expired.2
    internalOrders := internalOrders
    orderCumulativeFills := manager.orderCumulativeFills.retain fun clientOrderId _ ↦
      !manager.isReleased env nowMs clientOrderId || (internalOrders.lookup clientOrderId).isSome
    orderLineage := manager.orderLineage.retain fun clientOrderId _ ↦
      !manager.isReleased env nowMs clientOrderId || (internalOrders.lookup clientOrderId).isSome }

/-! ### Writing snapshots -/

def isSymbolPersistenceLatched (symbol : String) : Bool :=
  (manager.symbolPersistenceLatches.lookup symbol.toUpper).isSome

def latchSymbolPersistenceFailure (symbol context error : String) : ExecutionState :=
  let nowMs := max (env.nowMs manager.asked) 1
  let latch := (manager.symbolPersistenceLatches.lookup symbol.toUpper).getD
    ⟨symbol.toUpper, context, nowMs, nowMs, 0, error⟩
  { manager with
    symbolPersistenceLatches := manager.symbolPersistenceLatches.insert symbol.toUpper
      { latch with
        lastFailedAtMs := nowMs
        failureCount := saturatingSucc latch.failureCount
        reason := context
        lastError := error } }

/-- A snapshot is written, and a symbol whose snapshot could not be written is latched. -/
def persistExecutionStateForSymbol (symbol context : String) : Bool × ExecutionState :=
  let pruned := { manager.pruneResolvedExecutionArtifacts env with asked := manager.asked + 1 }
  match env.persisted manager.asked with
  | .ok () => (true, pruned)
  | .error error => (false, pruned.latchSymbolPersistenceFailure env symbol context error)

def storeChaseState (symbol : String) (chase : ChaseState) (context : String) :
    Bool × ExecutionState :=
  { manager with
    chaseStates := manager.chaseStates.insert symbol.toUpper chase }.persistExecutionStateForSymbol
      env symbol.toUpper context

/-! ### The end of a chase -/

def tombstoneIntentId (chase : ChaseState) (lineage : HashMap String OrderLineage) :
    Option String :=
  (manager.chaseIntentIds.lookup chase.symbol.toUpper).or
    ((lineage.findBy (env.order manager.asked) fun _ entry ↦ entry.intentId.isSome).bind
      fun entry ↦ entry.2.intentId)

/-- The state or the status of the tombstone changes, or there was none. -/
def isNewTransition (chase : ChaseState) (lifecycleState reconciliationStatus : String) : Bool :=
  (manager.terminalTombstones.lookup chase.cycleClientOrderId).all fun tombstone ↦
    tombstone.lifecycleState ≠ lifecycleState ||
      tombstone.reconciliationStatus ≠ reconciliationStatus

def nextWatermark (chase : ChaseState) (lifecycleState reconciliationStatus : String) : ℕ :=
  if manager.isNewTransition chase lifecycleState reconciliationStatus then
    max (saturatingSucc manager.terminalSequenceWatermark) 1
  else manager.terminalSequenceWatermark

/-- The entries of a map for the orders of a chase. -/
def known {α : Type} (chase : ChaseState) (m : HashMap String α) : HashMap String α :=
  m.retain fun clientOrderId _ ↦ clientOrderId ∈ chaseClientOrderIds chase

/-- The tombstone of a chase. It keeps the time at which the chase got its first one. -/
def terminalTombstone (chase : ChaseState)
    (lifecycleState reconciliationStatus reason : String) : TerminalLifecycleTombstone :=
  let existing := manager.terminalTombstones.lookup chase.cycleClientOrderId
  let tombstonedAtMs := (existing.map fun tombstone ↦ tombstone.tombstonedAtMs).getD
    (max (env.nowMs manager.asked) 1)
  { symbol := chase.symbol.toUpper
    cycleClientOrderId := chase.cycleClientOrderId
    intentId := manager.tombstoneIntentId env chase (known chase manager.orderLineage)
    lifecycleState := lifecycleState
    terminalSequenceWatermark :=
      ((existing.filter
          fun _ ↦ !manager.isNewTransition chase lifecycleState reconciliationStatus).map
        fun tombstone ↦ tombstone.terminalSequenceWatermark).getD
          (manager.nextWatermark chase lifecycleState reconciliationStatus)
    reconciliationStatus := reconciliationStatus
    tombstonedAtMs := tombstonedAtMs
    retentionDeadlineMs := saturatingAddMs tombstonedAtMs terminalTombstoneRetentionMs
    reason := reason
    clientOrderIds := chaseClientOrderIds chase
    chaseState := chase
    internalOrders := known chase manager.internalOrders
    orderCumulativeFills := known chase manager.orderCumulativeFills
    orderLineage := known chase manager.orderLineage }

def ensureTerminalTombstone (chase : ChaseState)
    (lifecycleState reconciliationStatus reason : String) : ExecutionState :=
  if isBlank unicodeBlank chase.cycleClientOrderId then manager
  else
    { manager with
      terminalSequenceWatermark :=
        manager.nextWatermark chase lifecycleState reconciliationStatus
      terminalTombstones := manager.terminalTombstones.insert chase.cycleClientOrderId
        (manager.terminalTombstone env chase lifecycleState reconciliationStatus reason) }

/-- A chase is removed; if the removal cannot be written it is put back. -/
def removeChaseState (symbol context : String) : ExecutionState :=
  let symbol := symbol.toUpper
  match manager.chaseStates.lookup symbol with
  | none => manager
  | some removed =>
    let cycleId := removed.cycleClientOrderId
    let without := { manager with
      chaseStates := manager.chaseStates.erase symbol
      chaseUnhedgedBudgets := manager.chaseUnhedgedBudgets.erase symbol
      chaseUnhedgedStartedAtMs := manager.chaseUnhedgedStartedAtMs.erase symbol
      cycleDeadlines := manager.cycleDeadlines.erase cycleId }
    let retained :=
      if (manager.terminalTombstones.lookup cycleId).isSome then without
      else without.ensureTerminalTombstone env removed "EXCHANGE_FLAT_AWAITING_TERMINAL"
        "AWAITING_LATE_PRIVATE_EVENTS" context
    let (durable, next) := retained.persistExecutionStateForSymbol env symbol context
    if durable then next
    else
      { next with
        chaseStates := next.chaseStates.insert symbol removed
        chaseUnhedgedBudgets :=
          match manager.chaseUnhedgedBudgets.lookup symbol with
          | some budget => next.chaseUnhedgedBudgets.insert symbol budget
          | none => next.chaseUnhedgedBudgets
        chaseUnhedgedStartedAtMs :=
          match manager.chaseUnhedgedStartedAtMs.lookup symbol with
          | some startedAtMs => next.chaseUnhedgedStartedAtMs.insert symbol startedAtMs
          | none => next.chaseUnhedgedStartedAtMs
        cycleDeadlines :=
          match manager.cycleDeadlines.lookup cycleId with
          | some deadline => next.cycleDeadlines.insert cycleId deadline
          | none => next.cycleDeadlines }

/-- Moving the acknowledgement of the intent of a chase. -/
def transitionIntentAck : Bool × ExecutionState :=
  (env.acknowledged manager.asked, { manager with asked := manager.asked + 1 })

/-- The status under which a chase ends and the reason that goes with it, if it ends at all. -/
def terminalStatus (status executionType : String) : Option String :=
  if status = "FILLED" ∧ executionType = "FILLED_CYCLE" then some "filled_cycle"
  else if status ∈ ["REJECTED", "CANCELED", "CANCELLED", "EXPIRED", "EXPIRED_IN_MATCH"] then
    some executionType
  else none

def publicationId (chase : ChaseState) (status executionType : String) : String :=
  "cycle:" ++ chase.cycleClientOrderId ++ ":" ++ status ++ ":" ++ executionType

def cycleEvent (chase : ChaseState) (status clientOrderId : String) (filledQty : ℚ) (maker : Bool)
    (executionType : String) : TerminalPublication where
  publicationId := publicationId chase status executionType
  symbol := chase.symbol
  status := status
  filledQty := filledQty
  clientOrderId := if clientOrderId = "" then chase.cycleClientOrderId else clientOrderId
  maker := maker
  executionType := executionType
  eventTimeMs := env.nowMs manager.asked
  isExit := chase.isExit
  singleLeg := chase.isSingleLeg
  spotTargetQuantity := chase.spotQuantity
  futuresTargetQuantity := chase.perpQuantity
  spotCumulativeFilledQuantity := chase.spotCumulativeFilled
  futuresCumulativeFilledQuantity := chase.futuresCumulativeFilled

/-- The tombstone of a chase that ends, and the publication of its end unless there is one. -/
def enqueueTerminal (chase : ChaseState) (reason : String) (publication : TerminalPublication) :
    ExecutionState :=
  let retained := manager.ensureTerminalTombstone env (chase.withPhase .completed)
    "TERMINAL_RECONCILED" "TERMINAL_EVENT_PERSISTED" reason
  { retained with
    terminalPublications :=
      if (retained.terminalPublications.lookup publication.publicationId).isSome then
        retained.terminalPublications
      else retained.terminalPublications.insert publication.publicationId publication }

/-- The intent of a chase that ended is acknowledged and forgotten. -/
def acknowledgeTerminal (symbol : String) : Bool × ExecutionState :=
  match manager.chaseIntentIds.lookup symbol with
  | none => (true, manager)
  | some _ =>
    let (moved, acknowledged) := manager.transitionIntentAck env
    if moved then
      (true, { acknowledged with chaseIntentIds := acknowledged.chaseIntentIds.erase symbol })
    else (false, acknowledged)

/-- Publishing where a chase stands. The end of a chase is published once, together with its
tombstone and the snapshot that holds both, before its intent is acknowledged. -/
def emitCycleOrderUpdate (chase : ChaseState) (status clientOrderId : String) (filledQty : ℚ)
    (maker : Bool) (executionType : String) : Bool × ExecutionState :=
  match terminalStatus status executionType with
  | none => (true, manager)
  | some reason =>
    let publication :=
      manager.cycleEvent env chase status clientOrderId filledQty maker executionType
    let (durable, stored) := (manager.enqueueTerminal env chase reason publication).storeChaseState
      env chase.symbol (chase.withPhase .completed)
      "terminal lifecycle and publication outbox before ACK"
    if durable then stored.acknowledgeTerminal env chase.symbol else (false, stored)

/-- A chase that the engine can no longer decide waits for a reconciliation. -/
def requireChaseReconciliation (symbol : String) (chase : ChaseState)
    (clientOrderId reason : String) : ExecutionState :=
  let held := chase.withPhase .reconciliationRequired
  let (durable, stored) := manager.storeChaseState env (env.toUppercase symbol) held
    "chase marked reconciliation-required"
  if ¬ durable then stored
  else
    let halted :=
      if ¬ stored.paper ∧ ¬ stored.isSymbolPersistenceLatched symbol then
        { stored with state := .reconciling }
      else stored
    (halted.emitCycleOrderUpdate env held "RECONCILIATION_REQUIRED" clientOrderId 0 false reason).2

/-! ### The return of a chase -/

/-- The tombstone that knows an order of a symbol. -/
def tombstoneOf (symbol clientOrderId : String) : Option (String × TerminalLifecycleTombstone) :=
  manager.terminalTombstones.findBy (env.order manager.asked) fun _ tombstone ↦
    tombstone.symbol = symbol.toUpper && clientOrderId ∈ tombstone.clientOrderIds

/-- What a tombstone retained is put back, and the tombstone says that a repair is required. -/
def restoreFromTombstone (symbol cycleId : String) (tombstone : TerminalLifecycleTombstone) :
    ExecutionState :=
  let watermark := max (saturatingSucc manager.terminalSequenceWatermark) 1
  { manager with
    internalOrders := manager.internalOrders ∪ tombstone.internalOrders
    orderCumulativeFills := manager.orderCumulativeFills ∪ tombstone.orderCumulativeFills
    orderLineage := manager.orderLineage ∪ tombstone.orderLineage
    chaseIntentIds :=
      match tombstone.intentId, manager.chaseIntentIds.lookup symbol.toUpper with
      | some intentId, none => manager.chaseIntentIds.insert symbol.toUpper intentId
      | _, _ => manager.chaseIntentIds
    terminalSequenceWatermark := watermark
    terminalTombstones := manager.terminalTombstones.insert cycleId
      { tombstone with
        lifecycleState := "EXCHANGE_FLAT_AWAITING_TERMINAL"
        reconciliationStatus := "LATE_FILL_REPAIR_REQUIRED"
        terminalSequenceWatermark := watermark
        reason := "late private fill recovered from terminal tombstone" } }

/-- A late update brings the chase back. -/
def recoverChaseFromTerminalTombstone (symbol clientOrderId : String) :
    Option (ChaseState × ExecutionState) :=
  (manager.tombstoneOf env symbol clientOrderId).map fun (cycleId, tombstone) ↦
    (tombstone.chaseState.ensureActiveAliases.withPhase .reconciliationRequired,
      manager.restoreFromTombstone symbol cycleId tombstone)

end ExecutionState

end Bongus.Engine
