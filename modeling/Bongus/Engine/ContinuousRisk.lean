import Bongus.Engine.EmergencyExit
import Bongus.Lib.Runs

/-!
# The continuous risk state

The risk state of the engine gets worse step by step (`transitionContinuousRiskStep`,
`advanceContinuousRisk`) and is cleared by an authoritative proof
(`clearContinuousRiskAfterProof`). It is also written past the table of its transitions: by a
snapshot that cannot be written, by a recovery barrier, and by an emergency exit that begins or
fails. `RiskEvent` lists every operation that writes it, cut where the engine waits for the
exchange, so that a list of events is any interleaving of them.

A review is meant to last, and a reduction of risk to end in nothing but a review. That holds along
a run exactly if no command begins an emergency exit under review
(`risk_severity_absorbing_iff`): such a command puts the engine back into the reduction of risk
(`emergency_command_leaves_review`).
-/

set_option autoImplicit false
set_option relaxedAutoImplicit false

namespace Bongus.Engine

open Lib Lib.Text Lib.Runs Lib.Fallible Ipc

namespace ContinuousRiskState

def asStr : ContinuousRiskState → String
  | .normal => "NORMAL"
  | .entryFrozen => "ENTRY_FROZEN"
  | .cancelingEntries => "CANCELING_ENTRIES"
  | .reconciling => "RECONCILING"
  | .derisking => "DERISKING"
  | .manualReview => "MANUAL_REVIEW"

def allows : ContinuousRiskState → ContinuousRiskState → Bool
  | .normal, .entryFrozen => true
  | .entryFrozen, .cancelingEntries => true
  | .cancelingEntries, .reconciling => true
  | .reconciling, .derisking => true
  | .reconciling, .manualReview => true
  | .derisking, .manualReview => true
  | _, _ => false

/-- The next state on the way to a target, if the target can be reached. -/
def toward : ContinuousRiskState → ContinuousRiskState → Option ContinuousRiskState
  | .normal, _ => some .entryFrozen
  | .entryFrozen, _ => some .cancelingEntries
  | .cancelingEntries, _ => some .reconciling
  | .reconciling, .manualReview => some .manualReview
  | .reconciling, .derisking => some .derisking
  | .reconciling, _ => none
  | .derisking, .manualReview => some .manualReview
  | .derisking, _ => none
  | .manualReview, _ => none

/-- A review lasts, and a reduction of risk ends in nothing but a review. -/
def Absorbs (before after : ContinuousRiskState) : Prop :=
  (before = .manualReview → after = .manualReview) ∧
    (before = .derisking → after = .derisking ∨ after = .manualReview)

instance (before after : ContinuousRiskState) : Decidable (Absorbs before after) :=
  inferInstanceAs (Decidable (_ ∧ _))

theorem Absorbs.refl (risk : ContinuousRiskState) : Absorbs risk risk := ⟨id, Or.inl⟩

theorem Absorbs.trans {first second third : ContinuousRiskState} (hfirst : Absorbs first second)
    (hsecond : Absorbs second third) : Absorbs first third := by
  refine ⟨fun hreview ↦ hsecond.1 (hfirst.1 hreview), fun hderisking ↦ ?_⟩
  rcases hfirst.2 hderisking with hstays | hreview
  · exact hsecond.2 hstays
  · exact Or.inr (hsecond.1 hreview)

theorem Absorbs.review (risk : ContinuousRiskState) : Absorbs risk .manualReview :=
  ⟨fun _ ↦ rfl, fun _ ↦ Or.inr rfl⟩

theorem absorbs_of_allows {before after : ContinuousRiskState} (hallows : before.allows after) :
    Absorbs before after := by
  cases before <;> cases after <;> first | exact absurd hallows (by decide) | decide

/-- The transitions on the way to a target get one nearer to it. -/
def distance : ContinuousRiskState → ℕ
  | .normal => 5
  | .entryFrozen => 4
  | .cancelingEntries => 3
  | .reconciling => 2
  | .derisking => 1
  | .manualReview => 0

theorem distance_toward {target before next : ContinuousRiskState}
    (hnext : before.toward target = some next) : next.distance < before.distance := by
  cases before <;> cases target <;> cases hnext <;> decide

end ContinuousRiskState

/-- What an exit learns on its way: its counters, its orders and their fills, and what the exchange
says about them. What it is for, and the state it is in, are not touched. -/
structure ProgressUpdate where
  apply : EmergencyExitRecord → EmergencyExitRecord
  symbol_apply : ∀ record, (apply record).symbol = record.symbol
  autonomous_apply : ∀ record,
    (apply record).autonomousRiskSequence = record.autonomousRiskSequence
  state_apply : ∀ record, (apply record).state = record.state

/-- How the coordinator of a recovery generation releases the barrier. -/
inductive RecoveryBarrierRelease where
  | published (generationId : String)
  | failed (reason : String)
  | disappeared
deriving DecidableEq

/-- A recovery barrier as it comes out: whether the sources could be prepared, whether the
coordinator took the answer, how it released the barrier, and whether it heard of the resumption. -/
structure RecoveryBarrier where
  requestId : String
  sources : Except String Unit
  accepted : Bool
  release : RecoveryBarrierRelease
  resumed : Bool

namespace RiskActor

variable (env : RiskEnvironment) (manager : RiskActor)

/-! ### Transitions -/

def enterRisk (next : ContinuousRiskState) (reason : String) (nowMs : ℤ) : RiskActor :=
  { manager with
    continuousRiskState := next
    continuousRiskReason := reason
    continuousRiskSequence := saturatingSucc manager.continuousRiskSequence
    continuousRiskUpdatedAtMs := nowMs }

def transitionContinuousRiskStep (next : ContinuousRiskState) (reason : String) :
    Bool × RiskActor :=
  if manager.continuousRiskState = next then (true, manager)
  else if ¬ manager.continuousRiskState.allows next then (false, manager)
  else
    (manager.enterRisk next reason (manager.currentTimeMs env)).persistExecutionState env
      "continuous risk transition"

/-- The loop that advances the risk, for a number of rounds. -/
def advanceWithin (target : ContinuousRiskState) (reason : String) :
    ℕ → RiskActor → Bool × RiskActor
  | 0, manager => (false, manager)
  | rounds + 1, manager =>
    if manager.continuousRiskState = target then
      manager.transitionContinuousRiskStep env target reason
    else
      match manager.continuousRiskState.toward target with
      | none => (false, manager)
      | some next =>
        let (moved, advanced) := manager.transitionContinuousRiskStep env next reason
        if moved then advanceWithin target reason rounds advanced else (false, advanced)

/-- Six rounds are enough for every target (`advanceWithin_eq`). -/
def advanceContinuousRisk (target : ContinuousRiskState) (reason : String) : Bool × RiskActor :=
  advanceWithin env target reason 6 manager

def clearContinuousRiskAfterProof (reason : String) : Bool × RiskActor :=
  match manager.continuousRiskState with
  | .derisking | .manualReview => (false, manager)
  | _ =>
    (manager.enterRisk .normal reason (manager.currentTimeMs env)).persistExecutionState env
      "continuous risk cleared after authoritative proof"

/-! ### Recovery barriers -/

def recoveryBarrierIdentifierIsValid (value : String) : Bool :=
  value ≠ "" ∧ value.utf8ByteSize ≤ 128 ∧
    value.toList.all fun c ↦ (c.isAlphanum || c == '-' || c == '_')

def barrierActive : String := "recovery_generation_barrier_active:"

def isControl (c : Char) : Bool := c.toNat < 32 || (127 ≤ c.toNat && c.toNat < 160)

def failRecoveryBarrier (requestId reason : String) : RiskActor :=
  let safeReason := String.ofList ((reason.toList.filter fun c ↦ !isControl c).take 512)
  let reconciling := { manager with state := .reconciling }
  ((reconciling.enterRisk .manualReview
      ("recovery_generation_barrier_failed:" ++ requestId ++ ":" ++ safeReason)
      (max (manager.currentTimeMs env) 1)).persistExecutionState env
    "recovery generation barrier failed").2

def prepareRecoveryBarrier (requestId : String) (sources : Except String Unit) :
    Except String Unit × RiskActor :=
  if ¬ recoveryBarrierIdentifierIsValid requestId then
    (.error "recovery barrier request id is invalid", manager)
  else if barrierActive.toList.isPrefixOf manager.continuousRiskReason.toList then
    (.error "a recovery generation barrier is already active", manager)
  else
    let frozen :=
      if manager.continuousRiskState = .normal then .entryFrozen else manager.continuousRiskState
    let (durable, entered) := (manager.enterRisk frozen (barrierActive ++ requestId)
      (max (manager.currentTimeMs env) 1)).persistExecutionState env
        "recovery generation barrier entered"
    if durable then (sources, entered)
    else (.error "could not durably enter recovery generation barrier", entered)

/-- The state of risk of before is put back, and whether that is durable. -/
def restoreAfterRecoveryBarrier (state : ContinuousRiskState) (reason requestId
    generationId : String) : Bool × RiskActor :=
  if ¬ recoveryBarrierIdentifierIsValid generationId then
    (false, manager.failRecoveryBarrier env requestId "publisher returned an invalid generation id")
  else
    (manager.enterRisk state reason (max (manager.currentTimeMs env) 1)).persistExecutionState env
      "recovery generation barrier released"

def releaseRecoveryBarrier (state : ContinuousRiskState) (reason requestId : String) :
    RecoveryBarrierRelease → Bool × RiskActor
  | .published generationId =>
    manager.restoreAfterRecoveryBarrier env state reason requestId generationId
  | .failed failure => (false, manager.failRecoveryBarrier env requestId failure)
  | .disappeared => (false, manager.failRecoveryBarrier env requestId
      "coordinator disappeared while the recovery barrier was active")

/-- The engine waits for the release of a barrier without taking another event. -/
def handleRecoveryBarrierEvent (barrier : RecoveryBarrier) : RiskActor :=
  match manager.prepareRecoveryBarrier env barrier.requestId barrier.sources with
  | (.error error, prepared) => prepared.failRecoveryBarrier env barrier.requestId error
  | (.ok (), prepared) =>
    if ¬ barrier.accepted then
      prepared.failRecoveryBarrier env barrier.requestId
        "coordinator disappeared before accepting the durable barrier"
    else
      let (durable, released) := prepared.releaseRecoveryBarrier env manager.continuousRiskState
        manager.continuousRiskReason barrier.requestId barrier.release
      if durable ∧ ¬ barrier.resumed then
        released.failRecoveryBarrier env barrier.requestId
          "coordinator did not receive the order-actor resume acknowledgement"
      else released

/-! ### Evaluation of the risk -/

def entrySymbols : List String :=
  (manager.chaseStates.keysBy (env.order manager.asked)).filter fun symbol ↦
    (manager.chaseStates.lookup symbol).any fun chase ↦
      !chase.isExit && chase.phase ≠ .completed

def requiresReconciliation (terminal : ContinuousRiskState) : Bool :=
  manager.entrySymbols env ≠ [] ∨ terminal ∈ [.reconciling, .derisking, .manualReview]

/-- A transition that is made only in one state: whether the evaluation may go on. -/
def stepFrom (condition : Bool) (next : ContinuousRiskState) (reason : String) :
    Bool × RiskActor :=
  if condition then manager.transitionContinuousRiskStep env next reason else (true, manager)

/-- The beginning of `activate_continuous_risk`, up to the cancellation of entries. -/
def freezeEntries (reason : String) (terminal : ContinuousRiskState) : RiskActor :=
  if manager.riskEvaluationActive ∨ manager.continuousRiskState = .manualReview then manager
  else
    let active := { manager with riskEvaluationActive := true }
    let (frozen, freezing) :=
      active.stepFrom env (active.continuousRiskState = .normal) .entryFrozen reason
    if ¬ frozen then { freezing with riskEvaluationActive := false }
    else
      let (canceling, begun) := freezing.stepFrom env
        (freezing.requiresReconciliation env terminal &&
          freezing.continuousRiskState = .entryFrozen) .cancelingEntries reason
      if canceling then begun else { begun with riskEvaluationActive := false }

/-- What the evaluation aims at once the entries are canceled. -/
def finalRisk (terminal : ContinuousRiskState) (cancellationFailed : Bool) : ContinuousRiskState :=
  if cancellationFailed then .manualReview else terminal

/-- The transitions after the cancellation of entries: whether the last was made. -/
def settleRisk (reason : String) (terminal : ContinuousRiskState)
    (requiresReconciliation cancellationFailed : Bool) : Bool × RiskActor :=
  let reconciled :=
    if requiresReconciliation then
      ({ manager with state := .reconciling }.advanceContinuousRisk env .reconciling reason).2
    else manager
  match finalRisk terminal cancellationFailed with
  | .derisking => reconciled.advanceContinuousRisk env .derisking reason
  | .manualReview => reconciled.advanceContinuousRisk env .manualReview reason
  | _ => (true, reconciled)

/-- The exits that are to be driven, and what went wrong with others. -/
structure Materialized where
  intents : List (String × String) := []
  errors : List String := []

def hasInventory (position : TrackedPosition) : Bool :=
  (position.spot.any fun leg ↦ 0 < leg.quantity) || (position.perp.any fun leg ↦ 0 < leg.quantity)

/-- The exit that a command asked for, and that put the engine into the reduction of risk, is
done. -/
def commandExitDone (symbol : String) : Bool :=
  manager.continuousRiskReason = "emergency_exit:" ++ symbol ∧
    (manager.emergencyExits.findBy (env.order manager.asked) fun _ record ↦
      record.symbol = symbol ∧ record.autonomousRiskSequence.isNone ∧
        record.state = .flat).isSome

/-- An exit of its own for one symbol, from the position the engine tracks. -/
def beginAutonomousExit (riskReason : String) (riskSequence : ℕ) (symbol : String) :
    Except String String × RiskActor :=
  match manager.trackedPositions.lookup symbol with
  | none => (.error (symbol ++ " tracked position disappeared during derisk"), manager)
  | some position =>
    match manager.autonomousEmergencyInstruction env symbol position riskSequence with
    | .error error => (.error error, manager)
    | .ok instruction =>
      match manager.beginEmergencyExitForRisk env instruction symbol (some riskSequence)
          ("continuous risk autonomous emergency: " ++ riskReason) with
      | (.ok intentId, begun) => (.ok intentId, begun)
      | (.error error, refused) =>
        (.error (symbol ++ " emergency detection failed: " ++ error), refused)

def materializeExit (riskReason : String) (riskSequence : ℕ)
    (held : Materialized × RiskActor) (symbol : String) : Materialized × RiskActor :=
  let found := held.1
  let manager := held.2
  match manager.emergencyExits.findBy (env.order manager.asked)
      fun _ record ↦ record.symbol = symbol ∧ record.state ≠ .flat with
  | some (_, existing) =>
    if existing.state = .manualReview then
      ({ found with
        errors := found.errors ++ [symbol ++ " emergency exit " ++ existing.intentId ++
          " already requires manual review: " ++ existing.lastError] }, manager)
    -- An exit that a command asked for is driven by the command.
    else if existing.autonomousRiskSequence.isNone then (found, manager)
    else ({ found with intents := found.intents ++ [(symbol, existing.intentId)] }, manager)
  | none =>
    if manager.commandExitDone env symbol then (found, manager)
    else
      match manager.beginAutonomousExit env riskReason riskSequence symbol with
      | (.ok intentId, begun) =>
        ({ found with intents := found.intents ++ [(symbol, intentId)] }, begun)
      | (.error error, refused) => ({ found with errors := found.errors ++ [error] }, refused)

/-- The first part of `drive_autonomous_emergency_exits`: every symbol gets its record before any
exit is driven. -/
def materializeEmergencyExits (riskReason : String) : Except String Materialized × RiskActor :=
  if manager.continuousRiskState ≠ .derisking then
    (.error "continuous risk is not durably DERISKING", manager)
  else
    let symbols := (manager.trackedPositions.keysBy fun _ ↦ 0).filter fun symbol ↦
      (manager.trackedPositions.lookup symbol).any hasInventory
    if symbols = [] then
      (.error ("DERISKING has no attributable positive tracked inventory; " ++
        "exchange-only risk requires manual review"), manager)
    else
      let (found, begun) := symbols.foldl
        (materializeExit env riskReason manager.continuousRiskSequence) ({}, manager)
      (.ok found, begun)

/-- The end of the cancellation of entries: the risk settles, and where it is to be reduced every
symbol gets its exit. -/
def concludeActivation (reason : String) (terminal : ContinuousRiskState)
    (requiresReconciliation cancellationFailed : Bool) : RiskActor :=
  let (moved, settled) :=
    manager.settleRisk env reason terminal requiresReconciliation cancellationFailed
  if finalRisk terminal cancellationFailed = .derisking ∧ moved then
    (settled.materializeEmergencyExits env reason).2
  else settled

/-- The end of an evaluation, with the failure of the exits if they failed. -/
def endEvaluation (failure : Option String) : RiskActor :=
  let reviewed :=
    match failure with
    | none => manager
    | some error =>
      if manager.continuousRiskState = ContinuousRiskState.manualReview then manager
      else
        (manager.advanceContinuousRisk env ContinuousRiskState.manualReview
          ("autonomous_emergency_flatten_failed:" ++ error)).2
  { reviewed with riskEvaluationActive := false }

end RiskActor

/-- What happens to the engine, as far as its risk and its exits are concerned. -/
inductive RiskEvent where
  | elsewhere (change : ExecutionState → ExecutionState)
  | persist (context : String)
  | step (next : ContinuousRiskState) (reason : String)
  | advance (target : ContinuousRiskState) (reason : String)
  | clear (reason : String)
  | recoveryBarrier (barrier : RecoveryBarrier)
  | recoveryBarrierFailed (requestId reason : String)
  | emergencyCommand (instruction : AlphaInstruction) (symbol : String)
  | updateExit (intentId context : String) (update : ProgressUpdate)
  | transitionExit (intentId : String) (next : EmergencyExitState) (reason : String)
  | failExit (intentId reason : String)
  | freezeEntries (reason : String) (terminal : ContinuousRiskState)
  | concludeActivation (reason : String) (terminal : ContinuousRiskState)
      (requiresReconciliation cancellationFailed : Bool)
  | endEvaluation (failure : Option String)

namespace RiskEvent

variable (env : RiskEnvironment)

def apply (manager : RiskActor) : RiskEvent → RiskActor
  | .elsewhere change => { manager with toExecutionState := change manager.toExecutionState }
  | .persist context => (manager.persistExecutionState env context).2
  | .step next reason => (manager.transitionContinuousRiskStep env next reason).2
  | .advance target reason => (manager.advanceContinuousRisk env target reason).2
  | .clear reason => (manager.clearContinuousRiskAfterProof env reason).2
  | .recoveryBarrier barrier => manager.handleRecoveryBarrierEvent env barrier
  | .recoveryBarrierFailed requestId reason => manager.failRecoveryBarrier env requestId reason
  | .emergencyCommand instruction symbol => (manager.beginEmergencyExit env instruction symbol).2
  | .updateExit intentId context update =>
    (manager.updateEmergencyExit env intentId context update.apply).2
  | .transitionExit intentId next reason =>
    (manager.transitionEmergencyExit env intentId next reason).2
  | .failExit intentId reason => manager.failEmergencyExit env intentId reason
  | .freezeEntries reason terminal => manager.freezeEntries env reason terminal
  | .concludeActivation reason terminal requiresReconciliation cancellationFailed =>
    manager.concludeActivation env reason terminal requiresReconciliation cancellationFailed
  | .endEvaluation failure => manager.endEvaluation env failure

/-- The event is a command for an emergency exit that the engine begins. -/
def BeginsExit (manager : RiskActor) : RiskEvent → Prop
  | .emergencyCommand instruction symbol =>
    ∃ record, manager.admitEmergencyExit env instruction symbol none "emergency route accepted" =
      .ok (some record)
  | _ => False

end RiskEvent

/-! ### What an operation can do

Every operation but two is a chain of the few moves below: the barrier, which puts back a state of
risk under a new number, and the command, which begins an exit. -/

/-- The exits are the same, for the same symbols and the same episodes. -/
def SameExits (before after : RiskActor) : Prop :=
  ∀ intentId,
    (after.emergencyExits.lookup intentId).map
        (fun record ↦ (record.symbol, record.autonomousRiskSequence)) =
      (before.emergencyExits.lookup intentId).map
        fun record ↦ (record.symbol, record.autonomousRiskSequence)

theorem SameExits.refl (manager : RiskActor) : SameExits manager manager := fun _ ↦ rfl

/-- A record of an exit is replaced by one for the same symbol and the same episode. -/
theorem SameExits.of_insert {before after : RiskActor} {intentId : String}
    {held record : EmergencyExitRecord} (hheld : before.emergencyExits.lookup intentId = some held)
    (hexits : after.emergencyExits = before.emergencyExits.insert intentId record)
    (hsymbol : record.symbol = held.symbol)
    (hautonomous : record.autonomousRiskSequence = held.autonomousRiskSequence) :
    SameExits before after := by
  intro other
  rw [hexits, HashMap.lookup_insert_ite]
  split_ifs with hsame
  · rw [hsame, hheld, Option.map_some, Option.map_some, hsymbol, hautonomous]
  · rfl

inductive RiskMove (env : RiskEnvironment) (before after : RiskActor) : Prop
  | keep (risk : after.continuousRiskState = before.continuousRiskState)
      (sequence : after.continuousRiskSequence = before.continuousRiskSequence)
      (exits : SameExits before after)
  | review (risk : after.continuousRiskState = .manualReview) (exits : SameExits before after)
  | escalate (allowed : before.continuousRiskState.allows after.continuousRiskState)
      (exits : SameExits before after)
  | clear (derisking : before.continuousRiskState ≠ .derisking)
      (review : before.continuousRiskState ≠ .manualReview)
      (risk : after.continuousRiskState = .normal) (exits : SameExits before after)
  | begin (record : EmergencyExitRecord) (derisking : before.continuousRiskState = .derisking)
      (risk : after.continuousRiskState = before.continuousRiskState)
      (sequence : after.continuousRiskSequence = before.continuousRiskSequence)
      (autonomous : record.autonomousRiskSequence = some before.continuousRiskSequence)
      (new : before.emergencyExits.lookup (RiskActor.autonomousEmergencyIntentId env record.symbol
        before.continuousRiskSequence) = none)
      (exits : after.emergencyExits = before.emergencyExits.insert
        (RiskActor.autonomousEmergencyIntentId env record.symbol before.continuousRiskSequence)
        record)

/-- A chain of moves. -/
abbrev RiskMoves (env : RiskEnvironment) : RiskActor → RiskActor → Prop :=
  Relation.ReflTransGen (RiskMove env)

open ContinuousRiskState in
theorem RiskMove.absorbs {env : RiskEnvironment} {before after : RiskActor}
    (hmove : RiskMove env before after) :
    Absorbs before.continuousRiskState after.continuousRiskState := by
  cases hmove with
  | keep hrisk =>
    rw [hrisk]
    exact Absorbs.refl _
  | review hrisk =>
    rw [hrisk]
    exact Absorbs.review _
  | escalate hallowed => exact absorbs_of_allows hallowed
  | clear hderisking hreview => exact ⟨fun h ↦ absurd h hreview, fun h ↦ absurd h hderisking⟩
  | begin _ _ hrisk =>
    rw [hrisk]
    exact Absorbs.refl _

open ContinuousRiskState in
theorem RiskMoves.absorbs {env : RiskEnvironment} {before after : RiskActor}
    (hmoves : RiskMoves env before after) :
    Absorbs before.continuousRiskState after.continuousRiskState := by
  induction hmoves with
  | refl => exact Absorbs.refl _
  | tail _ hmove ih => exact ih.trans hmove.absorbs

namespace RiskActor

variable (env : RiskEnvironment) (manager : RiskActor)

/-! ### Risk transitions as moves -/

/-- What changes neither the risk nor the exits. -/
theorem moves_of_eq {before after : RiskActor}
    (hrisk : after.continuousRiskState = before.continuousRiskState)
    (hsequence : after.continuousRiskSequence = before.continuousRiskSequence)
    (hexits : after.emergencyExits = before.emergencyExits) : RiskMoves env before after :=
  .single (.keep hrisk hsequence fun _ ↦ by rw [hexits])

theorem moves_persistExecutionState (context : String) :
    RiskMoves env manager (manager.persistExecutionState env context).2 := by
  unfold persistExecutionState tryPersistExecutionState
  cases env.persisted manager.asked with
  | ok _ => exact moves_of_eq env rfl rfl rfl
  | error _ => exact .single (.review rfl fun _ ↦ rfl)

/-- A state of risk is entered and written. -/
theorem moves_enterRisk {next : ContinuousRiskState} {reason : String} {nowMs : ℤ}
    (hmove : RiskMove env manager (manager.enterRisk next reason nowMs)) (context : String) :
    RiskMoves env manager
      ((manager.enterRisk next reason nowMs).persistExecutionState env context).2 := by
  have hwrite := moves_persistExecutionState env (manager.enterRisk next reason nowMs) context
  exact hwrite.head hmove

theorem moves_transitionContinuousRiskStep (next : ContinuousRiskState) (reason : String) :
    RiskMoves env manager (manager.transitionContinuousRiskStep env next reason).2 := by
  unfold transitionContinuousRiskStep
  split_ifs with hsame hallows
  · exact .refl
  · exact moves_enterRisk env manager (.escalate hallows fun _ ↦ rfl) _
  · exact .refl

theorem moves_advanceWithin (target : ContinuousRiskState) (reason : String) (rounds : ℕ) :
    RiskMoves env manager (advanceWithin env target reason rounds manager).2 := by
  induction rounds generalizing manager with
  | zero => exact .refl
  | succ rounds ih =>
    unfold advanceWithin
    split
    · exact moves_transitionContinuousRiskStep env manager target reason
    · split
      · exact .refl
      · rename_i next _
        have hstep := moves_transitionContinuousRiskStep env manager next reason
        dsimp only
        split
        · exact hstep.trans (ih _)
        · exact hstep

theorem moves_advanceContinuousRisk (target : ContinuousRiskState) (reason : String) :
    RiskMoves env manager (manager.advanceContinuousRisk env target reason).2 :=
  moves_advanceWithin env manager target reason 6

theorem moves_clearContinuousRiskAfterProof (reason : String) :
    RiskMoves env manager (manager.clearContinuousRiskAfterProof env reason).2 := by
  unfold clearContinuousRiskAfterProof
  split
  · exact .refl
  · exact .refl
  · rename_i hderisking hreview
    exact moves_enterRisk env manager (.clear hderisking hreview rfl fun _ ↦ rfl) _

theorem moves_failRecoveryBarrier (requestId reason : String) :
    RiskMoves env manager (manager.failRecoveryBarrier env requestId reason) := by
  have hstate : RiskMoves env manager { manager with state := .reconciling } :=
    moves_of_eq env rfl rfl rfl
  exact hstate.trans (moves_enterRisk env _ (.review rfl fun _ ↦ rfl) _)

/-! ### Exits as moves -/

theorem moves_updateEmergencyExit (intentId context : String) (update : ProgressUpdate) :
    RiskMoves env manager (manager.updateEmergencyExit env intentId context update.apply).2 := by
  unfold updateEmergencyExit
  split
  · exact .refl
  · rename_i held hheld
    exact .single (.keep rfl rfl
      (.of_insert hheld rfl (update.symbol_apply held) (update.autonomous_apply held)))

theorem moves_transitionEmergencyExit (intentId : String) (next : EmergencyExitState)
    (reason : String) :
    RiskMoves env manager (manager.transitionEmergencyExit env intentId next reason).2 := by
  unfold transitionEmergencyExit
  split
  · exact .refl
  · rename_i record hrecord
    split
    · exact .refl
    · exact .single (.keep rfl rfl (.of_insert hrecord rfl rfl rfl))

theorem moves_reviewEmergencyExit (intentId reason : String) :
    RiskMoves env manager (manager.reviewEmergencyExit env intentId reason) := by
  unfold reviewEmergencyExit
  split
  · exact moves_updateEmergencyExit env manager intentId _
      ⟨fun record ↦ { record with lastError := reason }, fun _ ↦ rfl, fun _ ↦ rfl, fun _ ↦ rfl⟩
  · exact .refl
  · exact .refl
  · exact moves_transitionEmergencyExit env manager intentId _ reason

theorem moves_failEmergencyExit (intentId reason : String) :
    RiskMoves env manager (manager.failEmergencyExit env intentId reason) := by
  have hreview : RiskMove env (manager.reviewEmergencyExit env intentId reason)
      (manager.failEmergencyExit env intentId reason) := by
    unfold failEmergencyExit
    dsimp only
    split <;> split <;> exact .review rfl fun _ ↦ rfl
  exact (moves_reviewEmergencyExit env manager intentId reason).tail hreview

/-- An exit of the engine's own begins under the name of its symbol and of the episode, if it has no
record yet. -/
theorem moves_beginEmergencyExitForRisk {instruction : AlphaInstruction} {symbol : String}
    {sequence : ℕ}
    (hintent : instruction.intentId = some (autonomousEmergencyIntentId env symbol sequence))
    (detectionReason : String) :
    RiskMoves env manager (manager.beginEmergencyExitForRisk env instruction symbol (some sequence)
      detectionReason).2 := by
  unfold beginEmergencyExitForRisk
  split
  · exact .refl
  · exact .refl
  · rename_i record hadmitted
    obtain ⟨-, hepisode, hunknown, -, quantities, slippage, -, -, hrecord⟩ :=
      of_admitEmergencyExit hadmitted
    have hsymbol : record.symbol = symbol := by rw [hrecord]; rfl
    have hautonomous : record.autonomousRiskSequence = some sequence := by rw [hrecord]; rfl
    have hname : record.intentId = autonomousEmergencyIntentId env symbol sequence := by
      rw [hrecord]
      exact congrArg orEmpty hintent
    simp only [Option.any_some, episodeChanged, decide_eq_false_iff_not, not_or, not_not]
      at hepisode
    obtain ⟨-, hsequence, hderisking⟩ := hepisode
    have hnew := hunknown rfl
    rw [hintent] at hnew
    rw [hsequence] at hautonomous hname hnew
    rw [← hsymbol] at hname hnew
    have hexits : (manager.holdDetected env symbol (some sequence) record).emergencyExits =
        manager.emergencyExits.insert record.intentId record := rfl
    rw [hname] at hexits
    exact .single (.begin record hderisking rfl rfl hautonomous hnew hexits)

theorem intentId_autonomousEmergencyInstruction {symbol : String} {position : TrackedPosition}
    {riskSequence : ℕ} {instruction : AlphaInstruction}
    (hinstruction : manager.autonomousEmergencyInstruction env symbol position riskSequence =
      .ok instruction) :
    instruction.intentId = some (autonomousEmergencyIntentId env symbol riskSequence) := by
  unfold autonomousEmergencyInstruction at hinstruction
  simp only [throw_bind, check_eq_ok, bind_eq_ok, pure_eq_ok] at hinstruction
  obtain ⟨spot, -, futures, -, -, intent, -, slippage, -, requested, -, spotF64, -, futuresF64, -,
    rfl⟩ := hinstruction
  rfl

theorem moves_beginAutonomousExit (riskReason : String) (riskSequence : ℕ) (symbol : String) :
    RiskMoves env manager (manager.beginAutonomousExit env riskReason riskSequence symbol).2 := by
  unfold beginAutonomousExit
  split
  · exact .refl
  · split
    · exact .refl
    · rename_i position _ instruction hinstruction
      have hmoves := moves_beginEmergencyExitForRisk env manager
        (intentId_autonomousEmergencyInstruction env manager hinstruction)
        ("continuous risk autonomous emergency: " ++ riskReason)
      split
      all_goals
        rename_i hbegun
        rw [hbegun] at hmoves
        exact hmoves

theorem moves_materializeExit (riskReason : String) (riskSequence : ℕ)
    (held : Materialized × RiskActor) (symbol : String) :
    RiskMoves env held.2 (materializeExit env riskReason riskSequence held symbol).2 := by
  unfold materializeExit
  dsimp only
  split
  · split
    · exact .refl
    · split <;> exact .refl
  · split
    · exact .refl
    · have hmoves := moves_beginAutonomousExit env held.2 riskReason riskSequence symbol
      split
      all_goals
        rename_i hbegun
        rw [hbegun] at hmoves
        exact hmoves

theorem moves_foldl_materializeExit (riskReason : String) (riskSequence : ℕ)
    (symbols : List String) (held : Materialized × RiskActor) :
    RiskMoves env held.2
      (symbols.foldl (materializeExit env riskReason riskSequence) held).2 := by
  induction symbols generalizing held with
  | nil => exact .refl
  | cons symbol rest ih =>
    exact (moves_materializeExit env riskReason riskSequence held symbol).trans (ih _)

theorem moves_materializeEmergencyExits (riskReason : String) :
    RiskMoves env manager (manager.materializeEmergencyExits env riskReason).2 := by
  unfold materializeEmergencyExits
  split
  · exact .refl
  · dsimp only
    split
    · exact .refl
    · exact moves_foldl_materializeExit env _ _ _ ({}, manager)

/-! ### Evaluations as moves -/

theorem moves_stepFrom (condition : Bool) (next : ContinuousRiskState) (reason : String) :
    RiskMoves env manager (manager.stepFrom env condition next reason).2 := by
  unfold stepFrom
  split
  · exact moves_transitionContinuousRiskStep env manager next reason
  · exact .refl

/-- Whether an evaluation is going on is neither risk nor exit. -/
theorem moves_active {before after : RiskActor} (active : Bool)
    (hmoves : RiskMoves env before after) :
    RiskMoves env before { after with riskEvaluationActive := active } :=
  hmoves.trans (moves_of_eq env rfl rfl rfl)

theorem moves_freezeEntries (reason : String) (terminal : ContinuousRiskState) :
    RiskMoves env manager (manager.freezeEntries env reason terminal) := by
  unfold freezeEntries
  split
  · exact .refl
  · have hactive := moves_active env true (.refl (a := manager))
    have hfrozen := hactive.trans (moves_stepFrom env { manager with riskEvaluationActive := true }
      (manager.continuousRiskState = .normal) .entryFrozen reason)
    dsimp only at hfrozen ⊢
    split
    · exact moves_active env false hfrozen
    · refine hfrozen.trans ?_
      split
      · exact moves_stepFrom env _ _ _ reason
      · exact moves_active env false (moves_stepFrom env _ _ _ reason)

theorem moves_settleRisk (reason : String) (terminal : ContinuousRiskState)
    (requiresReconciliation cancellationFailed : Bool) :
    RiskMoves env manager
      (manager.settleRisk env reason terminal requiresReconciliation cancellationFailed).2 := by
  unfold settleRisk
  have hreconciled : RiskMoves env manager
      (if requiresReconciliation then
        ({ manager with state := .reconciling }.advanceContinuousRisk env .reconciling reason).2
        else manager) := by
    split
    · have hstate : RiskMoves env manager { manager with state := .reconciling } :=
        moves_of_eq env rfl rfl rfl
      exact hstate.trans (moves_advanceContinuousRisk env _ _ _)
    · exact .refl
  dsimp only
  split
  · exact hreconciled.trans (moves_advanceContinuousRisk env _ _ _)
  · exact hreconciled.trans (moves_advanceContinuousRisk env _ _ _)
  · exact hreconciled

theorem moves_concludeActivation (reason : String) (terminal : ContinuousRiskState)
    (requiresReconciliation cancellationFailed : Bool) :
    RiskMoves env manager
      (manager.concludeActivation env reason terminal requiresReconciliation
        cancellationFailed) := by
  have hsettled := moves_settleRisk env manager reason terminal requiresReconciliation
    cancellationFailed
  unfold concludeActivation
  dsimp only
  split
  · exact hsettled.trans (moves_materializeEmergencyExits env _ _)
  · exact hsettled

theorem moves_endEvaluation (failure : Option String) :
    RiskMoves env manager (manager.endEvaluation env failure) := by
  unfold endEvaluation
  refine moves_active env false ?_
  split
  · exact .refl
  · split
    · exact .refl
    · exact moves_advanceContinuousRisk env manager _ _

/-! ### The two operations of their own kind -/

theorem risk_persistExecutionState (context : String) :
    (manager.persistExecutionState env context).2.continuousRiskState =
        manager.continuousRiskState ∨
      (manager.persistExecutionState env context).2.continuousRiskState = .manualReview := by
  unfold persistExecutionState tryPersistExecutionState
  cases env.persisted manager.asked with
  | ok _ => exact Or.inl rfl
  | error _ => exact Or.inr rfl

theorem risk_failRecoveryBarrier (requestId reason : String) :
    (manager.failRecoveryBarrier env requestId reason).continuousRiskState = .manualReview := by
  unfold failRecoveryBarrier
  rcases risk_persistExecutionState env _ "recovery generation barrier failed" with hrisk | hrisk
  · exact hrisk
  · exact hrisk

/-- A barrier puts back the state of risk it found, or ends in a review. -/
theorem risk_handleRecoveryBarrierEvent (barrier : RecoveryBarrier) :
    (manager.handleRecoveryBarrierEvent env barrier).continuousRiskState =
        manager.continuousRiskState ∨
      (manager.handleRecoveryBarrierEvent env barrier).continuousRiskState = .manualReview := by
  unfold handleRecoveryBarrierEvent
  split
  · exact Or.inr (risk_failRecoveryBarrier env _ _ _)
  · split
    · exact Or.inr (risk_failRecoveryBarrier env _ _ _)
    · dsimp only
      split
      · exact Or.inr (risk_failRecoveryBarrier env _ _ _)
      · unfold releaseRecoveryBarrier
        split
        · unfold restoreAfterRecoveryBarrier
          split
          · exact Or.inr (risk_failRecoveryBarrier env _ _ _)
          · exact risk_persistExecutionState env _ _
        · exact Or.inr (risk_failRecoveryBarrier env _ _ _)
        · exact Or.inr (risk_failRecoveryBarrier env _ _ _)

theorem risk_beginEmergencyExit_of_begins {instruction : AlphaInstruction} {symbol : String}
    {record : EmergencyExitRecord}
    (hadmitted : manager.admitEmergencyExit env instruction symbol none "emergency route accepted" =
      .ok (some record)) :
    (manager.beginEmergencyExit env instruction symbol).2.continuousRiskState = .derisking := by
  unfold beginEmergencyExit beginEmergencyExitForRisk
  rw [hadmitted]
  rfl

/-- A command for an exit that is not begun changes nothing. -/
theorem beginEmergencyExit_of_not_begins {instruction : AlphaInstruction} {symbol : String}
    (hadmitted : ¬ ∃ record, manager.admitEmergencyExit env instruction symbol none
      "emergency route accepted" = .ok (some record)) :
    (manager.beginEmergencyExit env instruction symbol).2 = manager := by
  unfold beginEmergencyExit beginEmergencyExitForRisk
  split
  · rfl
  · rfl
  · rename_i record hbegins
    exact absurd ⟨record, hbegins⟩ hadmitted

/-! ### The rounds of an advance -/

theorem risk_of_persisted {context : String}
    (hwritten : (manager.persistExecutionState env context).1 = true) :
    (manager.persistExecutionState env context).2.continuousRiskState =
      manager.continuousRiskState := by
  unfold persistExecutionState tryPersistExecutionState at hwritten ⊢
  cases houtcome : env.persisted manager.asked with
  | ok _ => rfl
  | error _ =>
    rw [houtcome] at hwritten
    cases hwritten

/-- A transition that is made leads to the state it was made for. -/
theorem risk_of_transitioned {next : ContinuousRiskState} {reason : String}
    (hmoved : (manager.transitionContinuousRiskStep env next reason).1 = true) :
    (manager.transitionContinuousRiskStep env next reason).2.continuousRiskState = next := by
  unfold transitionContinuousRiskStep at hmoved ⊢
  split_ifs at hmoved ⊢ with hsame
  · exact hsame
  · exact risk_of_persisted env _ hmoved

/-- The loop that advances the risk ends: more rounds than the distance of its state change
nothing. -/
theorem advanceWithin_eq (target : ContinuousRiskState) (reason : String) (rounds : ℕ)
    (hrounds : manager.continuousRiskState.distance < rounds) :
    advanceWithin env target reason (rounds + 1) manager =
      advanceWithin env target reason rounds manager := by
  induction rounds generalizing manager with
  | zero => exact absurd hrounds (Nat.not_lt_zero _)
  | succ rounds ih =>
    rw [advanceWithin, advanceWithin]
    split
    · rfl
    · cases hnext : manager.continuousRiskState.toward target with
      | none => rfl
      | some next =>
        dsimp only
        by_cases hmoved : (manager.transitionContinuousRiskStep env next reason).1 = true
        · rw [if_pos hmoved, if_pos hmoved]
          refine ih _ ?_
          rw [risk_of_transitioned env manager hmoved]
          have hnear := ContinuousRiskState.distance_toward hnext
          omega
        · rw [if_neg hmoved, if_neg hmoved]

theorem advanceContinuousRisk_eq (target : ContinuousRiskState) (reason : String) {rounds : ℕ}
    (hrounds : 6 ≤ rounds) :
    advanceWithin env target reason rounds manager =
      manager.advanceContinuousRisk env target reason := by
  induction rounds, hrounds using Nat.le_induction with
  | base => rfl
  | succ rounds hrounds ih =>
    have hdistance : manager.continuousRiskState.distance < 6 := by
      cases manager.continuousRiskState <;> decide
    rw [advanceWithin_eq env manager target reason rounds (hdistance.trans_le hrounds), ih]

end RiskActor

/-! ### Runs -/

namespace RiskEvent

open ContinuousRiskState

variable (env : RiskEnvironment)

/-- Every event but a barrier and a command for an exit is a chain of moves. -/
theorem moves_apply (manager : RiskActor) (event : RiskEvent)
    (hbarrier : ∀ barrier, event ≠ .recoveryBarrier barrier)
    (hbegins : ¬ event.BeginsExit env manager) :
    RiskMoves env manager (event.apply env manager) := by
  cases event with
  | elsewhere change => exact manager.moves_of_eq env rfl rfl rfl
  | persist context => exact manager.moves_persistExecutionState env context
  | step next reason => exact manager.moves_transitionContinuousRiskStep env next reason
  | advance target reason => exact manager.moves_advanceContinuousRisk env target reason
  | clear reason => exact manager.moves_clearContinuousRiskAfterProof env reason
  | recoveryBarrier barrier => exact absurd rfl (hbarrier barrier)
  | recoveryBarrierFailed requestId reason =>
    exact manager.moves_failRecoveryBarrier env requestId reason
  | emergencyCommand instruction symbol =>
    rw [apply, manager.beginEmergencyExit_of_not_begins env hbegins]
  | updateExit intentId context update =>
    exact manager.moves_updateEmergencyExit env intentId context update
  | transitionExit intentId next reason =>
    exact manager.moves_transitionEmergencyExit env intentId next reason
  | failExit intentId reason => exact manager.moves_failEmergencyExit env intentId reason
  | freezeEntries reason terminal => exact manager.moves_freezeEntries env reason terminal
  | concludeActivation reason terminal requiresReconciliation cancellationFailed =>
    exact manager.moves_concludeActivation env reason terminal _ _
  | endEvaluation failure => exact manager.moves_endEvaluation env failure

/-- An operation keeps to the order of severity unless it begins an exit under review. -/
theorem absorbs_apply_iff (manager : RiskActor) (event : RiskEvent) :
    Absorbs manager.continuousRiskState (event.apply env manager).continuousRiskState ↔
      ¬ (manager.continuousRiskState = .manualReview ∧ event.BeginsExit env manager) := by
  by_cases hbegins : event.BeginsExit env manager
  · cases event with
    | emergencyCommand instruction symbol =>
      obtain ⟨record, hadmitted⟩ := hbegins
      have hrisk := manager.risk_beginEmergencyExit_of_begins env hadmitted
      constructor
      · rintro habsorbs ⟨hreview, -⟩
        have hstays := habsorbs.1 hreview
        rw [apply, hrisk] at hstays
        cases hstays
      · intro hnot
        exact ⟨fun hreview ↦ absurd ⟨hreview, record, hadmitted⟩ hnot, fun _ ↦ Or.inl hrisk⟩
    | _ => exact hbegins.elim
  · refine iff_of_true ?_ fun hboth ↦ hbegins hboth.2
    by_cases hbarrier : ∃ barrier, event = .recoveryBarrier barrier
    · obtain ⟨barrier, rfl⟩ := hbarrier
      rw [apply]
      rcases manager.risk_handleRecoveryBarrierEvent env barrier with hrisk | hrisk
      · rw [hrisk]
        exact Absorbs.refl _
      · rw [hrisk]
        exact Absorbs.review _
    · refine (moves_apply env manager event (fun barrier hevent ↦ ?_) hbegins).absorbs
      exact hbarrier ⟨barrier, hevent⟩

/-- Along a run a review lasts and a reduction of risk ends in nothing but a review, between any two
of its states, exactly if no command begins an emergency exit under review. -/
theorem risk_severity_absorbing_iff (start : RiskActor) (events : List RiskEvent) :
    (∀ first later rest, events = first ++ later ++ rest →
        Absorbs (run (apply env) start first).continuousRiskState
          (run (apply env) start (first ++ later)).continuousRiskState) ↔
      Along (apply env) (fun manager event ↦
        ¬ (manager.continuousRiskState = .manualReview ∧ event.BeginsExit env manager))
        start events := by
  rw [along_iff]
  constructor
  · intro habsorbs before event after hsplit
    have hstep := habsorbs before [event] after (by rw [hsplit, List.append_assoc]; rfl)
    rw [run_concat] at hstep
    exact (absorbs_apply_iff env _ event).mp hstep
  · intro hevents first later
    -- Induction on the later events from their end: each is one step that keeps the order.
    induction later using List.reverseRecOn with
    | nil =>
      intro rest _
      rw [List.append_nil]
      exact Absorbs.refl _
    | append_singleton later event ih =>
      intro rest hsplit
      have hearlier := ih ([event] ++ rest) (by rw [hsplit]; simp)
      have hstep := (absorbs_apply_iff env _ event).mpr
        (hevents (first ++ later) event rest (by rw [hsplit]; simp))
      rw [← List.append_assoc, run_concat]
      exact hearlier.trans hstep

/-- A command to close one bitcoin on both legs. -/
def bitcoinExitCommand : AlphaInstruction where
  intent := "EXIT_LONG"
  intentId := some "exit-1"
  symbol := some "BTCUSDT"
  maxSlippageBps := 0x4049000000000000
  routePolicy := some "emergency_reduce_only"
  requestedQuantityDecimal := some "1"
  actualSpotInventoryDecimal := some "1"
  actualFuturesInventoryDecimal := some "1"
  exitSpotQuantityDecimal := some "1"
  exitFuturesQuantityDecimal := some "1"

/-- An engine under review because a recovery barrier failed goes back to the reduction of risk when
a command asks for an emergency exit. -/
theorem emergency_command_leaves_review :
    (run (apply .calm) {} [.recoveryBarrierFailed "generation-1" "coordinator restarted"]
      ).continuousRiskState = .manualReview ∧
    (run (apply .calm) {} [.recoveryBarrierFailed "generation-1" "coordinator restarted",
      .emergencyCommand bitcoinExitCommand "BTCUSDT"]).continuousRiskState = .derisking := by
  decide +kernel

end RiskEvent

end Bongus.Engine
