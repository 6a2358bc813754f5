import Mathlib.Algebra.Order.Ring.Rat
import Mathlib.Tactic.NormNum

/-!
# The risk engine

`bongus/engine/risk_engine.py`. `evaluate` compares a reading of the account with its limits. Some
breaches ask for less exposure, two trip the kill switch, and a venue that stays slow for longer
than the debounce time only blocks new exposure. After a kill the drawdown is held against the lower
of the two drawdown limits. Floats are read as the rationals they stand for.
-/

set_option autoImplicit false
set_option relaxedAutoImplicit false

namespace Bongus.Trader

structure RiskLimits where
  maxGrossExposureUsd : ℚ := 10000
  maxSymbolConcentration : ℚ := 60 / 100
  softDrawdownPct : ℚ := 4 / 100
  maxDrawdownPct : ℚ := 1 / 10
  maxDrawdownReleasePct : ℚ := 8 / 100
  maxDataStalenessMinutes : ℤ := 12
  maxLatencyMs : ℤ := 400
  maxConsecutiveLosses : ℤ := 5
  venueLatencyDebounceS : ℚ := 30

structure RiskState where
  grossExposureUsd : ℚ
  symbolConcentration : ℚ
  drawdownPct : ℚ
  dataStalenessMinutes : ℤ
  venueLatencyMs : ℤ
  consecutiveLosses : ℤ := 0
  previousKillSwitch : Bool := false
  liquidationBufferUsd : Option ℚ := none
  minimumLiquidationBufferUsd : ℚ := 0

/-- The reasons of a decision, with the numbers that their texts show. -/
inductive Reason where
  | grossExposureLimitExceeded
  | symbolConcentrationLimitExceeded
  | maxDrawdownBreached
  | softDrawdownActive (positionScale : ℚ)
  | marketDataStalenessTooHigh
  | venueLatencyTooHigh (latencyMs limitMs : ℤ) (duration : ℚ)
  | venueLatencyElevated (latencyMs : ℤ) (duration debounce : ℚ)
  | consecutiveLossLimitReached (losses limit : ℤ)
  | liquidationBufferCompressed (buffer minimum : ℚ)
  | unknownPositionValuation (symbols : List String)
  | durableKillEpisode
deriving DecidableEq, Repr

structure RiskDecision where
  allowNewRisk : Bool
  deriskRequired : Bool
  killSwitch : Bool
  positionScale : ℚ
  reasons : List Reason
deriving DecidableEq, Repr

/-- A reason that is given when its condition holds. -/
def reasonIf (condition : Bool) (reason : Reason) : List Reason :=
  if condition then [reason] else []

/-- The drawdown above which the switch trips. A kill is only left below both limits. -/
def RiskLimits.drawdownTrigger (limits : RiskLimits) (previousKillSwitch : Bool) : ℚ :=
  if previousKillSwitch then min limits.maxDrawdownPct limits.maxDrawdownReleasePct
  else limits.maxDrawdownPct

/-- Since when the venue has been slow. Zero stands for a venue that was not slow before. -/
def highLatencyStart (limits : RiskLimits) (start : ℚ) (state : RiskState) (now : ℚ) : ℚ :=
  if state.venueLatencyMs > limits.maxLatencyMs then (if start ≤ 0 then now else start) else 0

/-- The buffer above liquidation is known and too small. -/
def RiskState.bufferCompressed (state : RiskState) : Bool :=
  match state.liquidationBufferUsd with
  | none => false
  | some buffer => decide (state.minimumLiquidationBufferUsd > 0) &&
      decide (buffer < state.minimumLiquidationBufferUsd)

def evaluate (limits : RiskLimits) (start : ℚ) (state : RiskState) (now : ℚ) : RiskDecision :=
  let exposed := decide (state.grossExposureUsd > limits.maxGrossExposureUsd)
  let concentrated := decide (state.symbolConcentration > limits.maxSymbolConcentration)
  let breached := decide (state.drawdownPct > limits.drawdownTrigger state.previousKillSwitch)
  let soft := !breached && decide (state.drawdownPct ≥ limits.softDrawdownPct)
  let positionScale :=
    if soft then max (1 / 10) (1 - state.drawdownPct / limits.maxDrawdownPct) else 1
  let stale := decide (state.dataStalenessMinutes > limits.maxDataStalenessMinutes)
  let slow := decide (state.venueLatencyMs > limits.maxLatencyMs)
  let duration := now - highLatencyStart limits start state now
  let blocked := slow && decide (duration ≥ limits.venueLatencyDebounceS)
  let losing := decide (state.consecutiveLosses ≥ limits.maxConsecutiveLosses)
  let compressed := state.bufferCompressed
  let deriskRequired := exposed || concentrated || breached || stale || losing || compressed
  let killSwitch := breached || compressed
  { allowNewRisk := !deriskRequired && !killSwitch && !blocked
    deriskRequired := deriskRequired
    killSwitch := killSwitch
    positionScale := positionScale
    reasons :=
      reasonIf exposed .grossExposureLimitExceeded ++
      reasonIf concentrated .symbolConcentrationLimitExceeded ++
      reasonIf breached .maxDrawdownBreached ++
      reasonIf soft (.softDrawdownActive positionScale) ++
      reasonIf stale .marketDataStalenessTooHigh ++
      reasonIf blocked (.venueLatencyTooHigh state.venueLatencyMs limits.maxLatencyMs duration) ++
      reasonIf (slow && !blocked)
        (.venueLatencyElevated state.venueLatencyMs duration limits.venueLatencyDebounceS) ++
      reasonIf losing
        (.consecutiveLossLimitReached state.consecutiveLosses limits.maxConsecutiveLosses) ++
      reasonIf compressed (.liquidationBufferCompressed (state.liquidationBufferUsd.getD 0)
        state.minimumLiquidationBufferUsd) }

end Bongus.Trader
