import Mathlib.Algebra.Order.Ring.Rat
import Mathlib.Data.Finset.Insert
import Mathlib.Data.Finset.Dedup
import Mathlib.Tactic.Positivity
import Bongus.Lib.Text

/-!
# Chases

A chase of `execution_engine/src/order_manager.rs` brings the two legs of a position to their target
quantities. Each leg has a current order and the orders it had before, its aliases, and a cumulative
fill. `legForClientOrderId` says to which leg an order belongs. Quantities and prices are rationals:
every quantity is finite, and the checks that it is are left out.
-/

set_option autoImplicit false
set_option relaxedAutoImplicit false

namespace Bongus.Engine

open Lib.Text

inductive MarketType where
  | spot
  | perp
deriving DecidableEq, Repr

inductive TradeSide where
  | buy
  | sell
deriving DecidableEq, Repr

inductive Leg where
  | spot
  | futures
deriving DecidableEq, Repr

namespace Leg

def other : Leg → Leg
  | .spot => .futures
  | .futures => .spot

def market : Leg → MarketType
  | .spot => .spot
  | .futures => .perp

end Leg

inductive ChasePhase where
  | idle
  | dualMakerPlaced
  | legFilledWaiting (leg : Leg)
  | leggingDefenseTakerPlaced
  | deadlineFreezing
  | reconciliationRequired
  | completed
deriving DecidableEq, Repr

/-! ### The status of an order -/

inductive ExchangeOrderStatus where
  | new
  | partiallyFilled
  | filled
  | canceled
  | pendingCancel
  | rejected
  | expired
  | expiredInMatch
deriving DecidableEq, Repr

namespace ExchangeOrderStatus

def parse (value : String) : Option ExchangeOrderStatus :=
  match (trim unicodeBlank value).toUpper with
  | "NEW" => some .new
  | "PARTIALLY_FILLED" => some .partiallyFilled
  | "FILLED" => some .filled
  | "CANCELED" => some .canceled
  | "CANCELLED" => some .canceled
  | "PENDING_CANCEL" => some .pendingCancel
  | "REJECTED" => some .rejected
  | "EXPIRED" => some .expired
  | "EXPIRED_IN_MATCH" => some .expiredInMatch
  | _ => none

def asStr : ExchangeOrderStatus → String
  | .new => "NEW"
  | .partiallyFilled => "PARTIALLY_FILLED"
  | .filled => "FILLED"
  | .canceled => "CANCELED"
  | .pendingCancel => "PENDING_CANCEL"
  | .rejected => "REJECTED"
  | .expired => "EXPIRED"
  | .expiredInMatch => "EXPIRED_IN_MATCH"

def isFilled (status : ExchangeOrderStatus) : Bool := status = .filled

def isPartial (status : ExchangeOrderStatus) : Bool := status = .partiallyFilled

def isTerminal : ExchangeOrderStatus → Bool
  | .filled | .canceled | .rejected | .expired | .expiredInMatch => true
  | .new | .partiallyFilled | .pendingCancel => false

def isTerminalWithoutFullFill (status : ExchangeOrderStatus) : Bool :=
  status.isTerminal && !status.isFilled

end ExchangeOrderStatus

/-- The status of an order as the engine keeps it: that of the exchange, or one of its own. -/
def isTerminalInternalStatus (value : String) : Bool :=
  (ExchangeOrderStatus.parse value).any ExchangeOrderStatus.isTerminal ||
    value.toUpper = "NOT_SUBMITTED"

/-! ### The state of a chase -/

structure ChaseState where
  symbol : String
  quantity : ℚ := 0
  spotQuantity : ℚ := 0
  perpQuantity : ℚ := 0
  spotClientOrderId : String := ""
  futuresClientOrderId : String := ""
  spotOrderAliases : List String := []
  futuresOrderAliases : List String := []
  skipSpotLeg : Bool := false
  skipPerpLeg : Bool := false
  spotSide : TradeSide := .buy
  futuresSide : TradeSide := .sell
  isExit : Bool := false
  maxSlippageBps : ℚ := 0
  phase : ChasePhase := .idle
  expectedSpotPrice : ℚ := 0
  expectedFutPrice : ℚ := 0
  spotFillPrice : Option ℚ := none
  futuresFillPrice : Option ℚ := none
  spotCumulativeFilled : ℚ := 0
  futuresCumulativeFilled : ℚ := 0
  spotTerminal : Bool := false
  futuresTerminal : Bool := false
  lastExchangeEventTimeMs : Option ℤ := none
  lastReceiveTimeMs : Option ℤ := none
  lastPersistTimeMs : Option ℤ := none
deriving DecidableEq, Repr

namespace ChaseState

variable (chase : ChaseState)

def hasSpotLeg : Bool := !chase.skipSpotLeg

def hasFuturesLeg : Bool := !chase.skipPerpLeg

def isSingleLeg : Bool := xor chase.hasSpotLeg chase.hasFuturesLeg

def activeLeg : Option Leg :=
  match chase.hasSpotLeg, chase.hasFuturesLeg with
  | true, false => some .spot
  | false, true => some .futures
  | _, _ => none

def cycleClientOrderId : String :=
  if chase.hasSpotLeg ∧ chase.spotClientOrderId ≠ "" then chase.spotClientOrderId
  else chase.futuresClientOrderId

def aliasesFor : Leg → List String
  | .spot => chase.spotOrderAliases
  | .futures => chase.futuresOrderAliases

def activeClientOrderId : Leg → String
  | .spot => chase.spotClientOrderId
  | .futures => chase.futuresClientOrderId

def withAlias (clientOrderId : String) : Leg → ChaseState
  | .spot => { chase with spotOrderAliases := chase.spotOrderAliases ++ [clientOrderId] }
  | .futures => { chase with futuresOrderAliases := chase.futuresOrderAliases ++ [clientOrderId] }

def setActiveClientOrderId (leg : Leg) (clientOrderId : String) : ChaseState :=
  let kept :=
    if clientOrderId ∈ chase.aliasesFor leg then chase else chase.withAlias clientOrderId leg
  match leg with
  | .spot => { kept with spotClientOrderId := clientOrderId }
  | .futures => { kept with futuresClientOrderId := clientOrderId }

/-- The leg an order belongs to. The spot leg is asked first. -/
def legForClientOrderId (clientOrderId : String) : Option Leg :=
  if chase.spotClientOrderId = clientOrderId ∨ clientOrderId ∈ chase.spotOrderAliases then
    some .spot
  else if chase.futuresClientOrderId = clientOrderId ∨
      clientOrderId ∈ chase.futuresOrderAliases then some .futures
  else none

def ensureActiveAlias (leg : Leg) : ChaseState :=
  if chase.activeClientOrderId leg ≠ "" ∧
      chase.activeClientOrderId leg ∉ chase.aliasesFor leg then
    chase.withAlias (chase.activeClientOrderId leg) leg
  else chase

def ensureActiveAliases : ChaseState := (chase.ensureActiveAlias .spot).ensureActiveAlias .futures

def targetFor : Leg → ℚ
  | .spot => chase.spotQuantity
  | .futures => chase.perpQuantity

def cumulativeFor : Leg → ℚ
  | .spot => chase.spotCumulativeFilled
  | .futures => chase.futuresCumulativeFilled

def terminalFor : Leg → Bool
  | .spot => chase.spotTerminal
  | .futures => chase.futuresTerminal

def sideFor : Leg → TradeSide
  | .spot => chase.spotSide
  | .futures => chase.futuresSide

def expectedPriceFor : Leg → ℚ
  | .spot => chase.expectedSpotPrice
  | .futures => chase.expectedFutPrice

def fillPriceFor : Leg → Option ℚ
  | .spot => chase.spotFillPrice
  | .futures => chase.futuresFillPrice

def setFillPrice (price : ℚ) : Leg → ChaseState
  | .spot => { chase with spotFillPrice := some price }
  | .futures => { chase with futuresFillPrice := some price }

def setProgress (leg : Leg) (cumulative : ℚ) (terminal : Bool) : ChaseState :=
  match leg with
  | .spot => { chase with spotCumulativeFilled := cumulative, spotTerminal := terminal }
  | .futures => { chase with futuresCumulativeFilled := cumulative, futuresTerminal := terminal }

def withPhase (phase : ChasePhase) : ChaseState := { chase with phase := phase }

def bothLegsTerminal : Bool :=
  (!chase.hasSpotLeg || chase.spotTerminal) && (!chase.hasFuturesLeg || chase.futuresTerminal)

/-- What two quantities of a leg may differ by and still count as equal. -/
def toleranceOf (target : ℚ) : ℚ := |target| * (1 / 10 ^ 9) + 1 / 10 ^ 12

def tolerance (leg : Leg) : ℚ := toleranceOf (chase.targetFor leg)

/-- What the two legs may differ by and still count as balanced. -/
def cycleTolerance : ℚ := max chase.spotQuantity chase.perpQuantity * (1 / 10 ^ 9) + 1 / 10 ^ 12

/-! ### The orders of a leg -/

variable {chase}

/-- The orders of a leg: the current one and its aliases. -/
def orders (chase : ChaseState) (leg : Leg) : Finset String :=
  insert (chase.activeClientOrderId leg) (chase.aliasesFor leg).toFinset

/-- The current order of a leg, if it has one, is among its aliases. -/
def Aliased (chase : ChaseState) : Prop :=
  ∀ leg, chase.activeClientOrderId leg ≠ "" →
    chase.activeClientOrderId leg ∈ chase.aliasesFor leg

end ChaseState

end Bongus.Engine
