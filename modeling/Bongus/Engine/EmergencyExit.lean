import Bongus.Num.DecimalArithmetic
import Bongus.Engine.FillAccounting
import Bongus.Ipc.Protocol

/-!
# Emergency exits

An emergency exit closes the inventory of one symbol with orders that only reduce it. Its record is
written before anything is sent (`beginEmergencyExitForRisk`), it moves from state to state along
`EmergencyExitState.allows` (`transitionEmergencyExit`), and one that cannot go on is left to an
operator (`failEmergencyExit`). An exit is asked for by a command, or by the engine itself while the
risk is being reduced; the engine names its own exits after the symbol and the number of the risk
transition they belong to (`autonomousEmergencyIntentId`).

A snapshot that cannot be written latches the symbol it was written for, or, where none was named,
puts the whole engine under review (`persistExecutionState`).
-/

set_option autoImplicit false
set_option relaxedAutoImplicit false

namespace Bongus.Engine

open Lib Lib.Text Lib.Float64 Ipc Num ExactDecimal

inductive ContinuousRiskState where
  | normal
  | entryFrozen
  | cancelingEntries
  | reconciling
  | derisking
  | manualReview
deriving DecidableEq, Repr

inductive EmergencyExitState where
  | detected
  | cancelingCurrentOrders
  | signedReadback
  | inventoryClassified
  | reduceOnlyDerisking
  | verifyingFlat
  | flat
  | manualReview
deriving DecidableEq, Repr

namespace EmergencyExitState

def asStr : EmergencyExitState → String
  | .detected => "DETECTED"
  | .cancelingCurrentOrders => "CANCELING_CURRENT_ORDERS"
  | .signedReadback => "SIGNED_READBACK"
  | .inventoryClassified => "INVENTORY_CLASSIFIED"
  | .reduceOnlyDerisking => "REDUCE_ONLY_DERISKING"
  | .verifyingFlat => "VERIFYING_FLAT"
  | .flat => "FLAT"
  | .manualReview => "MANUAL_REVIEW"

def isTerminal : EmergencyExitState → Bool
  | .flat | .manualReview => true
  | _ => false

def allows : EmergencyExitState → EmergencyExitState → Bool
  | _, .manualReview => true
  | .detected, .cancelingCurrentOrders => true
  | .cancelingCurrentOrders, .signedReadback => true
  | .signedReadback, .inventoryClassified => true
  | .inventoryClassified, .reduceOnlyDerisking => true
  | .reduceOnlyDerisking, .verifyingFlat => true
  | .verifyingFlat, .flat => true
  | .verifyingFlat, .signedReadback => true
  | _, _ => false

end EmergencyExitState

structure EmergencyExitTransition where
  state : EmergencyExitState
  sequence : ℕ
  persistedAtMs : ℤ
  reason : String
deriving DecidableEq

/-- One order of an exit: each attempt on a leg is a generation of its own. -/
structure EmergencyRepairGeneration where
  leg : Leg
  generation : ℕ
  clientOrderId : String
  requestedQuantityDecimal : String
  cumulativeFilledDecimal : String
  finalStatus : String
deriving DecidableEq

/-- What a command says about where it belongs. -/
structure CommandLineage where
  accountId : Option String
  environment : Option String
  strategyId : Option String
  cycleId : Option String
  intentId : Option String
  configVersionHash : Option String
deriving DecidableEq

structure EmergencyExitRecord where
  schemaVersion : ℕ := 1
  symbol : String
  intentId : String
  lineage : CommandLineage
  originalExitSpotClientOrderIds : List String
  originalExitFuturesClientOrderIds : List String
  direction : String
  state : EmergencyExitState := .detected
  transitionSequence : ℕ := 1
  updatedAtMs : ℤ
  requestedQuantityDecimal : String
  actualSpotInventoryDecimal : String
  actualFuturesInventoryDecimal : String
  exitSpotQuantityDecimal : String
  exitFuturesQuantityDecimal : String
  signedSpotTotalDecimal : String := "0"
  signedSpotAvailableDecimal : String := "0"
  signedFuturesPositionDecimal : String := "0"
  initialSignedSpotTotalDecimal : String := "0"
  initialSignedFuturesPositionDecimal : String := "0"
  initialInventoryCaptured : Bool := false
  classifiedSpotExitQuantityDecimal : String := "0"
  classifiedFuturesExitQuantityDecimal : String := "0"
  cumulativeSpotEmergencyFilledDecimal : String := "0"
  cumulativeFuturesEmergencyFilledDecimal : String := "0"
  verifiedSpotInventoryDecimal : String := "0"
  verifiedFuturesInventoryDecimal : String := "0"
  spotReferencePriceDecimal : String
  futuresReferencePriceDecimal : String
  spotRepairClientOrderId : String
  futuresRepairClientOrderId : String
  spotGeneration : ℕ := 0
  futuresGeneration : ℕ := 0
  spotGenerations : List EmergencyRepairGeneration := []
  futuresGenerations : List EmergencyRepairGeneration := []
  cancelAttempts : ℕ := 0
  readbackAttempts : ℕ := 0
  submitAttempts : ℕ := 0
  verifyAttempts : ℕ := 0
  deriskAttempts : ℕ := 0
  spotSubmissionConfirmed : Bool := false
  futuresSubmissionConfirmed : Bool := false
  maxRetries : ℕ
  readbackBudget : ℕ
  maxSlippageBpsDecimal : String
  lastError : String := ""
  autonomousRiskSequence : Option ℕ
  triggerReason : String
  transitions : List EmergencyExitTransition
deriving DecidableEq

/-- The record after a transition. -/
def EmergencyExitRecord.moved (record : EmergencyExitRecord) (next : EmergencyExitState)
    (reason : String) (nowMs : ℤ) : EmergencyExitRecord :=
  let sequence := saturatingSucc record.transitionSequence
  { record with
    state := next
    transitionSequence := sequence
    updatedAtMs := nowMs
    lastError := if next = .manualReview then reason else ""
    transitions := record.transitions ++ [⟨next, sequence, nowMs, reason⟩] }

/-- A repair order that was sent to the exchange, with the record of its exit before the order. -/
structure EmergencyOrder where
  record : EmergencyExitRecord
  leg : Leg
  clientOrderId : String
  quantity : String
deriving DecidableEq

/-- What an emergency exit takes from the active configuration. -/
structure EmergencyBudgets where
  maxRetries : ℕ
  readbackAttempts : ℕ
  maxSlippageBps : String
deriving DecidableEq

def defaultEmergencyBudgets : EmergencyBudgets := ⟨2, 3, "50"⟩

/-- The state of the engine with its risk state and its exits, the exits of the last snapshot that
was written, and the repair orders that were sent. -/
structure RiskActor extends ExecutionState where
  continuousRiskState : ContinuousRiskState := .normal
  continuousRiskReason : String := "startup"
  continuousRiskSequence : ℕ := 0
  continuousRiskUpdatedAtMs : ℤ := 0
  executionStateJournalError : Option String := none
  riskEvaluationActive : Bool := false
  emergencyExits : HashMap String EmergencyExitRecord := ∅
  emergencyPublications : HashMap String EmergencyExitRecord := ∅
  activeBudgets : Option EmergencyBudgets := none
  durableExits : HashMap String EmergencyExitRecord := ∅
  emergencyOrders : List EmergencyOrder := []

/-- The surroundings of the engine, with the hexadecimal SHA-256 of bytes and the double nearest to
a decimal. -/
structure RiskEnvironment extends Environment where
  digest : List UInt8 → String
  toF64 : ExactDecimal → Option F64

/-- An environment in which nothing fails, with bytes for their digest and doubles for integers. -/
def RiskEnvironment.calm : RiskEnvironment where
  toEnvironment := .calm
  digest bytes := String.ofList (bytes.flatMap fun byte ↦
    [Nat.digitChar (byte.toNat / 16), Nat.digitChar (byte.toNat % 16)])
  toF64 value := if value.scale = 0 then F64.ofInt value.units else none

/-! ### Texts and bytes -/

/-- The decimal text of a number that the engine holds, zero if there is none. -/
def exactText (value : Option ℚ) : String :=
  ((value.bind ExactDecimal.ofRat).map ExactDecimal.display).getD "0"

/-- The bytes of a number, the most significant first. -/
def beBytes (width value : ℕ) : List UInt8 :=
  (List.range width).map fun place ↦ UInt8.ofNat (value / 256 ^ (width - 1 - place))

def utf8 (text : String) : List UInt8 := text.toUTF8.data.toList

def sideIsLong (side : String) : Option Bool :=
  if side.toUpper ∈ ["LONG", "BUY"] then some true
  else if side.toUpper ∈ ["SHORT", "SELL"] then some false
  else none

namespace RiskActor

variable (env : RiskEnvironment) (manager : RiskActor)

def currentTimeMs : ℤ := env.nowMs manager.asked

/-! ### Writing snapshots -/

/-- The attempt to write a snapshot, which also prunes what it would hold. -/
def tryPersistExecutionState : Except String Unit × RiskActor :=
  (env.persisted manager.asked,
    { manager with
      toExecutionState :=
        { manager.toExecutionState.pruneResolvedExecutionArtifacts env.toEnvironment with
          asked := manager.asked + 1 }
      durableExits :=
        if (env.persisted manager.asked).isOk then manager.emergencyExits
        else manager.durableExits })

def persistExecutionState (context : String) : Bool × RiskActor :=
  let (outcome, kept) := manager.tryPersistExecutionState env
  match outcome with
  | .ok () => (true, kept)
  | .error error =>
    (false,
      { kept with
        executionStateJournalError := some error
        state := .reconciling
        continuousRiskState := .manualReview
        continuousRiskReason := "execution_state_persistence_failed:" ++ context
        continuousRiskSequence := saturatingSucc kept.continuousRiskSequence
        continuousRiskUpdatedAtMs := kept.currentTimeMs env })

def persistExecutionStateForSymbol (symbol context : String) : Bool × RiskActor :=
  let (durable, execution) :=
    manager.toExecutionState.persistExecutionStateForSymbol env.toEnvironment symbol context
  (durable,
    { manager with
      toExecutionState := execution
      durableExits := if durable then manager.emergencyExits else manager.durableExits })

/-! ### The record of an exit -/

def updateEmergencyExit (intentId context : String)
    (update : EmergencyExitRecord → EmergencyExitRecord) : Bool × RiskActor :=
  match manager.emergencyExits.lookup intentId with
  | none => (false, manager)
  | some held =>
    let record := { update held with updatedAtMs := manager.currentTimeMs env }
    { manager with
      emergencyExits := manager.emergencyExits.insert intentId record
      }.persistExecutionStateForSymbol env record.symbol context

def flatPublicationId (intentId : String) : String := "emergency:" ++ intentId ++ ":FLAT"

/-- The record that was moved is held, and published if its exit is flat. -/
def holdMoved (intentId : String) (record : EmergencyExitRecord) : RiskActor :=
  let publicationId := flatPublicationId record.intentId
  { manager with
    emergencyExits := manager.emergencyExits.insert intentId record
    emergencyPublications :=
      if record.state = .flat ∧ (manager.emergencyPublications.lookup publicationId).isNone then
        manager.emergencyPublications.insert publicationId record
      else manager.emergencyPublications }

def transitionEmergencyExit (intentId : String) (next : EmergencyExitState) (reason : String) :
    Bool × RiskActor :=
  match manager.emergencyExits.lookup intentId with
  | none => (false, manager)
  | some record =>
    if record.state.isTerminal ∨ ¬ record.state.allows next ∨ isBlank unicodeBlank reason then
      (false, manager)
    else
      (manager.holdMoved intentId
        (record.moved next reason (manager.currentTimeMs env))).persistExecutionStateForSymbol env
          record.symbol "emergency exit state transition"

/-- The exit is marked for review, if it has not ended. -/
def reviewEmergencyExit (intentId reason : String) : RiskActor :=
  match (manager.emergencyExits.lookup intentId).map EmergencyExitRecord.state with
  | some .manualReview =>
    (manager.updateEmergencyExit env intentId "emergency manual-review reason updated"
      fun record ↦ { record with lastError := reason }).2
  | some .flat | none => manager
  | some _ => (manager.transitionEmergencyExit env intentId .manualReview reason).2

/-- The engine goes under review because of an exit. -/
def enterExitReview (reason : String) : RiskActor :=
  { manager with
    state := .reconciling
    continuousRiskState := .manualReview
    continuousRiskReason := "emergency_exit:" ++ reason
    continuousRiskSequence := saturatingSucc manager.continuousRiskSequence
    continuousRiskUpdatedAtMs := manager.currentTimeMs env }

def failEmergencyExit (intentId reason : String) : RiskActor :=
  let commandDriven := (manager.emergencyExits.lookup intentId).any fun record ↦
    record.autonomousRiskSequence.isNone
  let reviewed := (manager.reviewEmergencyExit env intentId reason).enterExitReview env reason
  let written :=
    match reviewed.emergencyExits.lookup intentId with
    | none => reviewed
    | some record =>
      (reviewed.persistExecutionStateForSymbol env record.symbol
        "emergency exit entered manual review").2
  if commandDriven then
    { written with
      toExecutionState := (written.toExecutionState.transitionIntentAck env.toEnvironment).2 }
  else written

/-! ### The beginning of an exit -/

def emergencyConfigBudgets : EmergencyBudgets := manager.activeBudgets.getD defaultEmergencyBudgets

def emergencyRepairClientOrderId (intentId : String) (leg : Leg) (generation : ℕ) : String :=
  let legBytes := match leg with
    | .spot => "\x00spot"
    | .futures => "\x00futures"
  let legCode := match leg with
    | .spot => "s"
    | .futures => "f"
  "bngs_er_" ++ legCode ++ "_" ++
    String.ofList ((env.digest (utf8 "bongus-emergency-repair-v1\x00" ++ utf8 intentId ++
      utf8 legBytes ++ beBytes 2 generation)).toList.take 22)

/-- The orders of an exit chase that existed before the emergency. -/
def originalExitIds (symbol : String) (leg : Leg) : List String :=
  match (manager.chaseStates.lookup symbol).filter ChaseState.isExit with
  | none => []
  | some chase =>
    ((chase.aliasesFor leg ++ [chase.activeClientOrderId leg]).filter
      fun clientOrderId ↦ clientOrderId ≠ "").dedup.insertionSort (· ≤ ·)

/-- The quantities of an exit command, each of which it must have. -/
structure ExitQuantities where
  requested : String
  actualSpot : String
  actualFutures : String
  exitSpot : String
  exitFutures : String

def requireField (field : Option String) (reason : String) : Except String String :=
  match field with
  | none => .error reason
  | some value => .ok value

def exitQuantities (instruction : AlphaInstruction) : Except String ExitQuantities := do
  let requested ← requireField instruction.requestedQuantityDecimal
    "missing_requested_quantity_decimal"
  let actualSpot ← requireField instruction.actualSpotInventoryDecimal
    "missing_actual_spot_inventory_decimal"
  let actualFutures ← requireField instruction.actualFuturesInventoryDecimal
    "missing_actual_futures_inventory_decimal"
  let exitSpot ← requireField instruction.exitSpotQuantityDecimal
    "missing_exit_spot_quantity_decimal"
  let exitFutures ← requireField instruction.exitFuturesQuantityDecimal
    "missing_exit_futures_quantity_decimal"
  return ⟨requested, actualSpot, actualFutures, exitSpot, exitFutures⟩

/-- A requested quantity is within a budget, both read from their texts. -/
def withinBudget (requested budget : String) : Bool :=
  match canonicalExact requested, canonicalExact budget with
  | some requested, some budget => requested.cmp budget ≠ .gt
  | _, _ => false

/-- The record of this risk episode already covers what is asked for. -/
def coversRequest (existing : EmergencyExitRecord) (instruction : AlphaInstruction)
    (symbol : String) (sequence : ℕ) (quantities : ExitQuantities) : Bool :=
  existing.autonomousRiskSequence = some sequence ∧ existing.symbol = symbol ∧
    existing.direction = instruction.intent ∧
    withinBudget quantities.exitSpot existing.exitSpotQuantityDecimal ∧
    withinBudget quantities.exitFutures existing.exitFuturesQuantityDecimal

/-- An exit of the symbol has not become flat. -/
def hasOpenExit (symbol : String) : Bool :=
  (manager.emergencyExits.findBy (env.order manager.asked) fun _ record ↦
    record.symbol = symbol ∧ record.state ≠ .flat).isSome

/-- The slippage budget of an exit: the smaller of the command's and the configured one. -/
def effectiveSlippage (instruction : AlphaInstruction) : Except String String :=
  match ExactDecimal.fromF64 instruction.maxSlippageBps,
    canonicalExact manager.emergencyConfigBudgets.maxSlippageBps with
  | some command, some configured => .ok (ExactDecimal.min command configured).display
  | _, _ => .error "invalid_emergency_slippage_budget"

def detectedRecord (instruction : AlphaInstruction) (symbol : String)
    (autonomousRiskSequence : Option ℕ) (detectionReason : String) (quantities : ExitQuantities)
    (effectiveSlippage : String) : EmergencyExitRecord where
  symbol := symbol
  intentId := orEmpty instruction.intentId
  lineage := ⟨instruction.accountId, instruction.environment, instruction.strategyId,
    instruction.cycleId, instruction.intentId, instruction.configVersionHash⟩
  originalExitSpotClientOrderIds := manager.originalExitIds symbol .spot
  originalExitFuturesClientOrderIds := manager.originalExitIds symbol .futures
  direction := instruction.intent
  updatedAtMs := manager.currentTimeMs env
  requestedQuantityDecimal := quantities.requested
  actualSpotInventoryDecimal := quantities.actualSpot
  actualFuturesInventoryDecimal := quantities.actualFutures
  exitSpotQuantityDecimal := quantities.exitSpot
  exitFuturesQuantityDecimal := quantities.exitFutures
  spotReferencePriceDecimal := exactText (manager.spotMidCache.lookup symbol)
  futuresReferencePriceDecimal := exactText (manager.perpMidCache.lookup symbol)
  spotRepairClientOrderId := emergencyRepairClientOrderId env (orEmpty instruction.intentId) .spot 0
  futuresRepairClientOrderId :=
    emergencyRepairClientOrderId env (orEmpty instruction.intentId) .futures 0
  maxRetries := manager.emergencyConfigBudgets.maxRetries
  readbackBudget := manager.emergencyConfigBudgets.readbackAttempts
  maxSlippageBpsDecimal := effectiveSlippage
  autonomousRiskSequence := autonomousRiskSequence
  triggerReason := detectionReason
  transitions := [⟨.detected, 1, manager.currentTimeMs env, detectionReason⟩]

/-- The risk episode an autonomous exit was decided in is over. -/
def episodeChanged (sequence : ℕ) : Bool :=
  sequence = 0 ∨ sequence ≠ manager.continuousRiskSequence ∨
    manager.continuousRiskState ≠ .derisking

/-- What the engine decides on a request for an exit: the record that already covers it (`none`), a
new record, or the reason for which it is refused. -/
def admitEmergencyExit (instruction : AlphaInstruction) (symbol : String)
    (autonomousRiskSequence : Option ℕ) (detectionReason : String) :
    Except String (Option EmergencyExitRecord) :=
  if isBlank unicodeBlank detectionReason then .error "missing_emergency_detection_reason"
  else if autonomousRiskSequence.any manager.episodeChanged then
    .error "autonomous_emergency_risk_episode_changed"
  else
    match exitQuantities instruction with
    | .error reason => .error reason
    | .ok quantities =>
      match autonomousRiskSequence,
        manager.emergencyExits.lookup (orEmpty instruction.intentId) with
      | some sequence, some existing =>
        if coversRequest existing instruction symbol sequence quantities then .ok none
        else .error "autonomous_emergency_intent_conflict"
      | _, _ =>
        if manager.hasOpenExit env symbol then .error "emergency_exit_already_active"
        else
          match manager.effectiveSlippage instruction with
          | .error reason => .error reason
          | .ok slippage =>
            .ok (some (manager.detectedRecord env instruction symbol autonomousRiskSequence
              detectionReason quantities slippage))

variable {env manager} in
/-- A new record is the one of the request: its episode is the present one, no record has its name
if the engine asks for itself, and no exit of the symbol is open. -/
theorem of_admitEmergencyExit {instruction : AlphaInstruction} {symbol : String}
    {autonomousRiskSequence : Option ℕ} {detectionReason : String} {record : EmergencyExitRecord}
    (hadmitted : manager.admitEmergencyExit env instruction symbol autonomousRiskSequence
      detectionReason = .ok (some record)) :
    isBlank unicodeBlank detectionReason = false ∧
      autonomousRiskSequence.any manager.episodeChanged = false ∧
      (autonomousRiskSequence.isSome →
        manager.emergencyExits.lookup (orEmpty instruction.intentId) = none) ∧
      manager.hasOpenExit env symbol = false ∧
      ∃ quantities slippage, exitQuantities instruction = .ok quantities ∧
        manager.effectiveSlippage instruction = .ok slippage ∧
        record = manager.detectedRecord env instruction symbol autonomousRiskSequence
          detectionReason quantities slippage := by
  unfold admitEmergencyExit at hadmitted
  split at hadmitted
  · cases hadmitted
  rename_i hreason
  split at hadmitted
  · cases hadmitted
  rename_i hepisode
  split at hadmitted
  · cases hadmitted
  rename_i quantities hquantities
  split at hadmitted
  · split at hadmitted <;> cases hadmitted
  rename_i hunknown
  split at hadmitted
  · cases hadmitted
  rename_i hopen
  split at hadmitted
  · cases hadmitted
  rename_i slippage hslippage
  cases hadmitted
  refine ⟨Bool.eq_false_iff.mpr hreason, Bool.eq_false_iff.mpr hepisode, fun hautonomous ↦ ?_,
    Bool.eq_false_iff.mpr hopen, quantities, slippage, hquantities, hslippage, rfl⟩
  obtain ⟨sequence, rfl⟩ := Option.isSome_iff_exists.mp hautonomous
  cases hlookup : manager.emergencyExits.lookup (orEmpty instruction.intentId) with
  | none => rfl
  | some existing => exact (hunknown sequence existing rfl hlookup).elim

/-- A new record is held, and an exit that a command asks for starts to reduce the risk. -/
def holdDetected (symbol : String) (autonomousRiskSequence : Option ℕ)
    (record : EmergencyExitRecord) : RiskActor :=
  let held := { manager with
    state := .reconciling
    emergencyExits := manager.emergencyExits.insert record.intentId record }
  if autonomousRiskSequence.isSome then held
  else
    { held with
      continuousRiskState := .derisking
      continuousRiskReason := "emergency_exit:" ++ symbol
      continuousRiskSequence := saturatingSucc manager.continuousRiskSequence
      continuousRiskUpdatedAtMs := manager.currentTimeMs env }

def beginEmergencyExitForRisk (instruction : AlphaInstruction) (symbol : String)
    (autonomousRiskSequence : Option ℕ) (detectionReason : String) :
    Except String String × RiskActor :=
  match manager.admitEmergencyExit env instruction symbol autonomousRiskSequence
      detectionReason with
  | .error reason => (.error reason, manager)
  | .ok none => (.ok (orEmpty instruction.intentId), manager)
  | .ok (some record) =>
    let (durable, written) := (manager.holdDetected env symbol autonomousRiskSequence
      record).persistExecutionStateForSymbol env symbol "emergency exit DETECTED before effects"
    (if durable then .ok record.intentId else .error "emergency_state_not_durable", written)

def beginEmergencyExit (instruction : AlphaInstruction) (symbol : String) :
    Except String String × RiskActor :=
  manager.beginEmergencyExitForRisk env instruction symbol none "emergency route accepted"

/-! ### Exits of the engine's own -/

def autonomousEmergencyIntentId (symbol : String) (riskSequence : ℕ) : String :=
  "rust-risk-" ++ toString riskSequence ++ "-" ++
    String.ofList ((env.digest (utf8 "bongus-continuous-risk-emergency-v1\x00" ++
      beBytes 8 riskSequence ++ utf8 symbol)).toList.take 20)

/-- The quantity of a tracked leg as a decimal, zero if there is no leg. -/
def exactLegQuantity (symbol legName : String) :
    Option TrackedLegPosition → Except String ExactDecimal
  | none => .ok .zero
  | some leg =>
    match (ofRat leg.quantity).filter ExactDecimal.isPositive with
    | some quantity => .ok quantity
    | none => .error
      (symbol ++ " tracked " ++ legName ++ " quantity is not a finite positive value")

/-- The direction of the exit of a position, on which its legs must agree. -/
def emergencyDirection (symbol : String) (position : TrackedPosition) : Except String String := do
  let spotDirection ← match position.spot with
    | none => pure none
    | some spot =>
      match sideIsLong spot.side with
      | none => throw (symbol ++ " tracked spot side is invalid")
      | some false => throw (symbol ++
          " tracked short-spot liability cannot be autonomously repaid on Standard Spot")
      | some true => pure (some "EXIT_LONG")
  let direction ← match position.perp with
    | none => pure spotDirection
    | some futures =>
      match sideIsLong futures.side with
      | none => throw (symbol ++ " tracked futures side is invalid")
      | some isLong =>
        let candidate := if isLong then "EXIT_SHORT" else "EXIT_LONG"
        if spotDirection.any fun current ↦ current ≠ candidate then
          throw (symbol ++ " tracked futures side conflicts with the other leg")
        pure (some candidate)
  match direction with
  | none => throw (symbol ++ " emergency direction could not be classified")
  | some direction => pure direction

/-- A number of the command, which must fit a double. -/
def executionInput (value : ExactDecimal) (error : String) : Except String F64 :=
  match env.toF64 value with
  | none => .error error
  | some value => .ok value

def configuredSlippage : Except String F64 :=
  match ((canonicalExact manager.emergencyConfigBudgets.maxSlippageBps).bind env.toF64).filter
      fun value ↦ value.isFinite && 0 ≤ value.value with
  | none => .error "configured emergency slippage budget is invalid"
  | some value => .ok value

def autonomousEmergencyInstruction (symbol : String) (position : TrackedPosition)
    (riskSequence : ℕ) : Except String AlphaInstruction := do
  let spotQuantity ← exactLegQuantity symbol "spot" position.spot
  let futuresQuantity ← exactLegQuantity symbol "futures" position.perp
  let requestedQuantity := ExactDecimal.max spotQuantity futuresQuantity
  if ¬ requestedQuantity.isPositive then
    throw (symbol ++ " has no tracked inventory to derisk")
  let intent ← emergencyDirection symbol position
  let maxSlippageBps ← manager.configuredSlippage env
  let requestedF64 ← executionInput env requestedQuantity
    (symbol ++ " emergency quantity does not fit execution input")
  let spotF64 ← executionInput env spotQuantity
    (symbol ++ " spot quantity does not fit execution input")
  let futuresF64 ← executionInput env futuresQuantity
    (symbol ++ " futures quantity does not fit execution input")
  return {
    symbol := some symbol
    intent := intent
    quantity := requestedF64
    urgency := 0x3ff0000000000000
    maxSlippageBps := maxSlippageBps
    routePolicy := some "emergency_reduce_only"
    routeModelVersion := some "continuous-risk-emergency-v1"
    exposureScale := 0x3ff0000000000000
    intentId := some (autonomousEmergencyIntentId env symbol riskSequence)
    direction := some (if intent = "EXIT_LONG" then "long" else "short")
    skipSpotLeg := spotQuantity = .zero
    skipPerpLeg := futuresQuantity = .zero
    spotQuantity := some spotF64
    perpQuantity := some futuresF64
    requestedQuantityDecimal := some requestedQuantity.display
    actualSpotInventoryDecimal := some spotQuantity.display
    actualFuturesInventoryDecimal := some futuresQuantity.display
    exitSpotQuantityDecimal := some spotQuantity.display
    exitFuturesQuantityDecimal := some futuresQuantity.display }

end RiskActor

end Bongus.Engine
