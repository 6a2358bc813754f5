import Bongus.Lib.Decimals
import Bongus.Lib.Fallible
import Bongus.Lib.Text

/-!
# The two-leg hedge cycle

`bongus/engine/leg_state_machine.py`. A cycle has a spot and a perp leg, each with a target. `apply`
takes one exchange update: it decides what the update is (`plan`: a duplicate, a stale update, or
one to be written), and writes it (`HedgeCycleState.written`). A call can raise before it writes
anything, and also after it has written, because the transition it returns carries the mismatch
that the arithmetic may refuse to compute. So `apply` returns the state beside its outcome.
-/

set_option autoImplicit false
set_option relaxedAutoImplicit false

namespace Bongus.Hedge.LegStateMachine

open Lib.Decimals Lib.Fallible Lib.Text

/-! ### Statuses, updates and states -/

inductive Leg where
  | spot
  | perp
deriving DecidableEq, Repr

inductive LegStatus where
  | created
  | working
  | partiallyFilled
  | cancelPending
  | filled
  | cancelled
  | expired
  | rejected
  | unknown
deriving DecidableEq, Repr

def LegStatus.terminal : LegStatus → Bool
  | .filled | .cancelled | .expired | .rejected => true
  | .created | .working | .partiallyFilled | .cancelPending | .unknown => false

/-- A status as the caller gives it. -/
inductive StatusInput where
  | status (status : LegStatus)
  | text (text : String)
deriving DecidableEq, Repr

def statusAliases : List (String × LegStatus) :=
  [("CREATED", .created),
    ("PENDING_NEW", .working),
    ("NEW", .working),
    ("OPEN", .working),
    ("WORKING", .working),
    ("PARTIAL", .partiallyFilled),
    ("PARTIALLY_FILLED", .partiallyFilled),
    ("PENDING_CANCEL", .cancelPending),
    ("CANCEL_PENDING", .cancelPending),
    ("FILLED", .filled),
    ("CANCELED", .cancelled),
    ("CANCELLED", .cancelled),
    ("EXPIRED", .expired),
    ("EXPIRED_IN_MATCH", .expired),
    ("REJECTED", .rejected)]

structure LegUpdate where
  eventId : String
  leg : Leg
  status : StatusInput
  cumulativeQuantity : Numeric
  eventTimeMs : ℤ
  orderId : String := ""
  clientOrderId : String := ""
  sequence : Option ℤ := none
  exchangeVerified : Bool := false
  source : String := "stream"
deriving DecidableEq, Repr

/-- The payload whose hash tells two updates of one event id apart. -/
structure FingerprintPayload where
  clientOrderId : String
  cumulativeQuantity : Decimal
  eventTimeMs : ℤ
  exchangeVerified : Bool
  leg : Leg
  orderId : String
  sequence : Option ℤ
  source : String
  status : LegStatus
deriving DecidableEq, Repr

/-- What the cycle takes from the language: the two case mappings, the SHA-256 of the canonical JSON
of a payload, and the context of decimal arithmetic. -/
structure Host where
  upper : String → String
  lower : String → String
  digest : FingerprintPayload → String
  context : Context

inductive Breach where
  | unknownExchangeStatus
  | overfill
  | lateFillAfterTerminal
  | filledStatusBelowTarget
  | targetFilledWithNonfilledStatus
deriving DecidableEq, Repr

structure LegExecutionState where
  targetSignedQuantity : ℚ
  cumulativeQuantity : ℚ := 0
  status : LegStatus := .created
  orderId : String := ""
  clientOrderId : String := ""
  lastSequence : Option ℤ := none
  lastEventTimeMs : ℤ := 0
  exchangeVerified : Bool := false
  breaches : List Breach := []
deriving DecidableEq

structure HedgeCycleState where
  cycleId : String
  spot : LegExecutionState
  perp : LegExecutionState
  initialSpotQuantity : ℚ := 0
  initialPerpQuantity : ℚ := 0
  perpDeltaMultiplier : ℚ
  quantityTolerance : ℚ
  seenEvents : List (String × String) := []
  breaches : List (Leg × Breach) := []
deriving DecidableEq

structure Transition where
  applied : Bool
  duplicate : Bool
  stale : Bool
  fillDelta : ℚ
  previousStatus : LegStatus
  currentStatus : LegStatus
  mismatchQuantity : ℚ
  breaches : List Breach := []
deriving DecidableEq

variable (host : Host)

/-- The status an update carries. A text that is no alias is an unknown status. -/
def legStatus : StatusInput → LegStatus
  | .status status => status
  | .text text => (statusAliases.lookup (host.upper (trim separatorBlank text))).getD .unknown

def LegUpdate.fingerprint (update : LegUpdate) : Except String String := do
  let quantity ← update.cumulativeQuantity.read "cumulative_quantity"
  return host.digest {
    clientOrderId := update.clientOrderId
    cumulativeQuantity := quantity
    eventTimeMs := update.eventTimeMs
    exchangeVerified := update.exchangeVerified
    leg := update.leg
    orderId := update.orderId
    sequence := update.sequence
    source := update.source
    status := legStatus host update.status }

/-! ### Derived quantities -/

def sign (value : ℚ) : ℚ := if value ≥ 0 then 1 else -1

def LegExecutionState.targetQuantity (state : LegExecutionState) : Except String ℚ :=
  host.context.abs state.targetSignedQuantity

def LegExecutionState.signedFilledQuantity (state : LegExecutionState) : Except String ℚ :=
  host.context.mul (sign state.targetSignedQuantity) state.cumulativeQuantity

def LegExecutionState.verifiedTerminal (state : LegExecutionState) : Bool :=
  state.exchangeVerified && state.status.terminal

namespace HedgeCycleState

def targetEndDelta (cycle : HedgeCycleState) : Except String ℚ := do
  let spot ← host.context.add cycle.initialSpotQuantity cycle.spot.targetSignedQuantity
  let perp ← host.context.add cycle.initialPerpQuantity cycle.perp.targetSignedQuantity
  let hedge ← host.context.mul perp cycle.perpDeltaMultiplier
  host.context.add spot hedge

def currentSpotQuantity (cycle : HedgeCycleState) : Except String ℚ := do
  host.context.add cycle.initialSpotQuantity (← cycle.spot.signedFilledQuantity host)

def currentPerpQuantity (cycle : HedgeCycleState) : Except String ℚ := do
  host.context.add cycle.initialPerpQuantity (← cycle.perp.signedFilledQuantity host)

def mismatchQuantity (cycle : HedgeCycleState) : Except String ℚ := do
  let spot ← cycle.currentSpotQuantity host
  let perp ← cycle.currentPerpQuantity host
  let hedge ← host.context.mul perp cycle.perpDeltaMultiplier
  host.context.add spot hedge

def hedged (cycle : HedgeCycleState) : Except String Bool := do
  let mismatch ← cycle.mismatchQuantity host
  let size ← host.context.abs mismatch
  return size ≤ cycle.quantityTolerance

/-- The mismatch is only computed once both legs are terminal. -/
def verifiedTerminal (cycle : HedgeCycleState) : Except String Bool :=
  if cycle.spot.verifiedTerminal && cycle.perp.verifiedTerminal then cycle.hedged host
  else return false

def safeToProjectComplete (cycle : HedgeCycleState) : Except String Bool := do
  let terminal ← cycle.verifiedTerminal host
  return terminal && cycle.breaches.isEmpty && cycle.spot.breaches.isEmpty &&
    cycle.perp.breaches.isEmpty

/-- The state of one leg. -/
def leg (cycle : HedgeCycleState) : Leg → LegExecutionState
  | .spot => cycle.spot
  | .perp => cycle.perp

/-- The cycle with the state of one leg replaced. -/
def setLeg (cycle : HedgeCycleState) (which : Leg) (state : LegExecutionState) : HedgeCycleState :=
  match which with
  | .spot => { cycle with spot := state }
  | .perp => { cycle with perp := state }

end HedgeCycleState

/-! ### Construction -/

/-- The checks of `__post_init__` on the values `entry` and `exit` pass. -/
def HedgeCycleState.checked (cycle : HedgeCycleState) : Except String HedgeCycleState := do
  if isBlank separatorBlank cycle.cycleId then throw "cycle_id is required"
  if cycle.perpDeltaMultiplier ≤ 0 then throw "perp_delta_multiplier must be positive"
  if cycle.quantityTolerance < 0 then throw "quantity_tolerance must be non-negative"
  let delta ← cycle.targetEndDelta host
  let size ← host.context.abs delta
  if size > cycle.quantityTolerance then throw "target transactions do not finish delta neutral"
  return cycle

/-- The default tolerance of a cycle. -/
def defaultTolerance : Numeric := .decimal ⟨false, 1, -8⟩

/-- The signed spot quantity an entry buys in a direction. -/
def entrySpotTarget (direction : String) (qty : ℚ) : Except String ℚ :=
  let normalized := host.lower (trim separatorBlank direction)
  if normalized = "long_spot_short_perp" then return qty
  else if normalized = "short_spot_long_perp" then host.context.neg qty
  else throw "unsupported hedge direction"

def HedgeCycleState.entry (cycleId : String) (quantity : Numeric)
    (direction : String := "long_spot_short_perp")
    (perpDeltaMultiplier : Numeric := .decimal (.ofInt 1))
    (quantityTolerance : Numeric := defaultTolerance) : Except String HedgeCycleState := do
  let qty ← quantity.read "quantity"
  let multiplier ← perpDeltaMultiplier.read "perp_delta_multiplier"
  if qty.value ≤ 0 ∨ multiplier.value ≤ 0 then throw "quantity and multiplier must be positive"
  let spotTarget ← entrySpotTarget host direction qty.value
  let ratio ← host.context.div spotTarget multiplier.value
  let perpTarget ← host.context.neg ratio
  let tolerance ← quantityTolerance.read "quantity_tolerance"
  HedgeCycleState.checked host {
    cycleId := cycleId
    spot := { targetSignedQuantity := spotTarget }
    perp := { targetSignedQuantity := perpTarget }
    perpDeltaMultiplier := multiplier.value
    quantityTolerance := tolerance.value }

def HedgeCycleState.exit (cycleId : String) (spotQuantity perpQuantity : Numeric)
    (perpDeltaMultiplier : Numeric := .decimal (.ofInt 1))
    (quantityTolerance : Numeric := defaultTolerance) : Except String HedgeCycleState := do
  let spot ← spotQuantity.read "spot_quantity"
  let perp ← perpQuantity.read "perp_quantity"
  let multiplier ← perpDeltaMultiplier.read "perp_delta_multiplier"
  let tolerance ← quantityTolerance.read "quantity_tolerance"
  let hedge ← host.context.mul perp.value multiplier.value
  let delta ← host.context.add spot.value hedge
  let size ← host.context.abs delta
  if size > tolerance.value then throw "starting position is not delta neutral"
  let spotTarget ← host.context.neg spot.value
  let perpTarget ← host.context.neg perp.value
  HedgeCycleState.checked host {
    cycleId := cycleId
    spot := { targetSignedQuantity := spotTarget }
    perp := { targetSignedQuantity := perpTarget }
    initialSpotQuantity := spot.value
    initialPerpQuantity := perp.value
    perpDeltaMultiplier := multiplier.value
    quantityTolerance := tolerance.value }

/-- A cycle built by one of the two constructors. -/
inductive Built : HedgeCycleState → Prop
  | entry {cycleId : String} {quantity : Numeric} {direction : String}
      {perpDeltaMultiplier quantityTolerance : Numeric} {cycle : HedgeCycleState}
      (hbuilt : HedgeCycleState.entry host cycleId quantity direction perpDeltaMultiplier
        quantityTolerance = .ok cycle) : Built cycle
  | exit {cycleId : String} {spotQuantity perpQuantity perpDeltaMultiplier quantityTolerance :
      Numeric} {cycle : HedgeCycleState}
      (hbuilt : HedgeCycleState.exit host cycleId spotQuantity perpQuantity perpDeltaMultiplier
        quantityTolerance = .ok cycle) : Built cycle

/-! ### Applying an update -/

/-- What an update is taken for. -/
inductive Effect where
  | duplicate
  | stale
  | write (cumulative fillDelta : ℚ) (status : LegStatus) (breaches : List Breach)

/-- A breach that is recorded when its condition holds. -/
def breachIf (condition : Prop) [Decidable condition] (breach : Breach) : List Breach :=
  if condition then [breach] else []

/-- The breaches of an update and the status it leaves. A filled quantity overrides another status
label, and the override is itself a breach. -/
def assess (tolerance : ℚ) (state : LegExecutionState) (status : LegStatus)
    (cumulative fillDelta : ℚ) : Except String (LegStatus × List Breach) := do
  let target ← state.targetQuantity host
  let limit ← host.context.add target tolerance
  let breaches := breachIf (status = .unknown) .unknownExchangeStatus ++
    breachIf (cumulative > limit) .overfill ++
    breachIf (fillDelta > 0 ∧ state.status.terminal) .lateFillAfterTerminal
  if status = .filled then
    let padded ← host.context.add cumulative tolerance
    return (.filled, breaches ++ breachIf (padded < target) .filledStatusBelowTarget)
  else
    let floor ← host.context.sub target tolerance
    if cumulative ≥ floor then
      return (.filled, breaches ++ [.targetFilledWithNonfilledStatus])
    else
      return (status, breaches)

/-- An identity may be learned once and not changed. -/
def identityChanged (prior incoming : String) : Bool :=
  prior ≠ "" && incoming ≠ "" && prior ≠ incoming

/-- The update has a lower sequence than one its leg has seen. -/
def staleSequence (state : LegExecutionState) (update : LegUpdate) : Bool :=
  match update.sequence, state.lastSequence with
  | some sequence, some last => sequence < last
  | _, _ => false

/-- What `apply` does before it writes: the fingerprint of the update, and what it is taken for. -/
def plan (cycle : HedgeCycleState) (update : LegUpdate) : Except String (String × Effect) := do
  if isBlank separatorBlank update.eventId then throw "event_id is required"
  let fingerprint ← update.fingerprint host
  let state := cycle.leg update.leg
  match cycle.seenEvents.lookup update.eventId with
  | some prior =>
    if prior ≠ fingerprint then throw ("event_id collision: " ++ update.eventId)
    return (fingerprint, .duplicate)
  | none =>
    let quantity ← update.cumulativeQuantity.read "cumulative_quantity"
    let cumulative := quantity.value
    if cumulative < 0 then throw "cumulative_quantity must be non-negative"
    if cumulative < state.cumulativeQuantity then
      if staleSequence state update ∨ update.eventTimeMs < state.lastEventTimeMs then
        return (fingerprint, .stale)
      else
        throw "newer cumulative quantity regressed"
    else
      let fillDelta ← host.context.sub cumulative state.cumulativeQuantity
      let (status, breaches) ← assess host cycle.quantityTolerance state
        (legStatus host update.status) cumulative fillDelta
      if staleSequence state update ∧ fillDelta = 0 then
        return (fingerprint, .stale)
      else
        if identityChanged state.orderId update.orderId then
          throw "order_id changed within a leg"
        if identityChanged state.clientOrderId update.clientOrderId then
          throw "client_order_id changed within a leg"
        return (fingerprint, .write cumulative fillDelta status breaches)

/-- New items are added in order, each at most once. -/
def record {α : Type} [DecidableEq α] (known added : List α) : List α :=
  added.foldl (fun known item ↦ if item ∈ known then known else known ++ [item]) known

/-- The highest sequence of a leg. A stored zero counts as none. -/
def nextSequence (last incoming : Option ℤ) : Option ℤ :=
  match incoming with
  | none => last
  | some sequence =>
    let known := match last with
      | none => sequence
      | some known => if known = 0 then sequence else known
    some (max known sequence)

/-- The leg after an update is written to it. -/
def LegExecutionState.written (state : LegExecutionState) (update : LegUpdate) (cumulative : ℚ)
    (status : LegStatus) (breaches : List Breach) : LegExecutionState :=
  { state with
    cumulativeQuantity := cumulative
    status := status
    orderId := if state.orderId = "" then update.orderId else state.orderId
    clientOrderId := if state.clientOrderId = "" then update.clientOrderId else state.clientOrderId
    lastSequence := nextSequence state.lastSequence update.sequence
    lastEventTimeMs := max state.lastEventTimeMs update.eventTimeMs
    exchangeVerified := update.exchangeVerified
    breaches := record state.breaches breaches }

/-- The cycle with an event id marked as seen. -/
def HedgeCycleState.see (cycle : HedgeCycleState) (eventId fingerprint : String) :
    HedgeCycleState :=
  { cycle with seenEvents := cycle.seenEvents ++ [(eventId, fingerprint)] }

/-- The cycle after the effect of an update. -/
def HedgeCycleState.after (cycle : HedgeCycleState) (update : LegUpdate) (fingerprint : String) :
    Effect → HedgeCycleState
  | .duplicate => cycle
  | .stale => cycle.see update.eventId fingerprint
  | .write cumulative _ status breaches =>
    let written := cycle.setLeg update.leg
      ((cycle.leg update.leg).written update cumulative status breaches)
    { written.see update.eventId fingerprint with
      breaches := record cycle.breaches (breaches.map fun breach ↦ (update.leg, breach)) }

/-- The transition an effect is reported as. -/
def Effect.transition (effect : Effect) (previousStatus : LegStatus) (mismatch : ℚ) : Transition :=
  match effect with
  | .duplicate => ⟨false, true, false, 0, previousStatus, previousStatus, mismatch, []⟩
  | .stale => ⟨false, false, true, 0, previousStatus, previousStatus, mismatch, []⟩
  | .write _ fillDelta status breaches =>
    ⟨true, false, false, fillDelta, previousStatus, status, mismatch, breaches⟩

def HedgeCycleState.apply (cycle : HedgeCycleState) (update : LegUpdate) :
    Except String Transition × HedgeCycleState :=
  match plan host cycle update with
  | .error message => (.error message, cycle)
  | .ok (fingerprint, effect) =>
    let next := cycle.after update fingerprint effect
    (do
      let mismatch ← next.mismatchQuantity host
      return effect.transition (cycle.leg update.leg).status mismatch, next)

/-! ### What a call does -/

@[simp] theorem breachIf_eq_nil {condition : Prop} [Decidable condition] {breach : Breach} :
    breachIf condition breach = [] ↔ ¬ condition := by
  unfold breachIf
  split_ifs with h
  · simp [h]
  · simp [h]

@[simp] theorem mem_record {α : Type} [DecidableEq α] {known added : List α} {item : α} :
    item ∈ record known added ↔ item ∈ known ∨ item ∈ added := by
  induction added generalizing known with
  | nil => simp [record]
  | cons first rest ih =>
    have hstep : record known (first :: rest) =
        record (if first ∈ known then known else known ++ [first]) rest := rfl
    rw [hstep, ih, List.mem_cons]
    by_cases hknown : first ∈ known
    · rw [if_pos hknown]
      constructor
      · exact Or.imp_right Or.inr
      · rintro (hitem | rfl | hitem)
        · exact Or.inl hitem
        · exact Or.inl hknown
        · exact Or.inr hitem
    · rw [if_neg hknown, List.mem_append, List.mem_singleton, or_assoc]

@[simp] theorem leg_setLeg (cycle : HedgeCycleState) (which other : Leg)
    (state : LegExecutionState) :
    (cycle.setLeg which state).leg other = if other = which then state else cycle.leg other := by
  cases which <;> cases other <;> rfl

/-- The update is written to its leg by this call, whatever the call returns. -/
def Writes (cycle : HedgeCycleState) (update : LegUpdate) (cumulative fillDelta : ℚ)
    (status : LegStatus) (breaches : List Breach) : Prop :=
  ∃ fingerprint, plan host cycle update =
    .ok (fingerprint, .write cumulative fillDelta status breaches)

/-- A call that writes nothing leaves both legs and the breaches as they are. -/
theorem apply_of_not_writes {cycle : HedgeCycleState} {update : LegUpdate}
    (hwrites : ∀ cumulative fillDelta status breaches,
      ¬ Writes host cycle update cumulative fillDelta status breaches) :
    (cycle.apply host update).2.leg = cycle.leg ∧
      (cycle.apply host update).2.breaches = cycle.breaches ∧
      (cycle.apply host update).2.quantityTolerance = cycle.quantityTolerance := by
  unfold HedgeCycleState.apply
  cases hplan : plan host cycle update with
  | error message => exact ⟨rfl, rfl, rfl⟩
  | ok result =>
    obtain ⟨fingerprint, effect⟩ := result
    cases effect with
    | duplicate => exact ⟨rfl, rfl, rfl⟩
    | stale => exact ⟨funext fun which ↦ by cases which <;> rfl, rfl, rfl⟩
    | write cumulative fillDelta status breaches =>
      exact absurd ⟨fingerprint, hplan⟩ (hwrites cumulative fillDelta status breaches)

/-- A call that writes changes the leg of the update and records its breaches. -/
theorem apply_of_writes {cycle : HedgeCycleState} {update : LegUpdate} {cumulative fillDelta : ℚ}
    {status : LegStatus} {breaches : List Breach}
    (hwrites : Writes host cycle update cumulative fillDelta status breaches) :
    (∀ which, (cycle.apply host update).2.leg which = if which = update.leg then
        (cycle.leg update.leg).written update cumulative status breaches else cycle.leg which) ∧
      (cycle.apply host update).2.breaches =
        record cycle.breaches (breaches.map fun breach ↦ (update.leg, breach)) ∧
      (cycle.apply host update).2.quantityTolerance = cycle.quantityTolerance := by
  obtain ⟨fingerprint, hplan⟩ := hwrites
  unfold HedgeCycleState.apply
  simp only [hplan]
  refine ⟨fun which ↦ ?_, rfl, ?_⟩
  · rw [← leg_setLeg]
    cases which <;> rfl
  · cases hleg : update.leg <;> simp [HedgeCycleState.after, HedgeCycleState.see,
      HedgeCycleState.setLeg, hleg]

end Bongus.Hedge.LegStateMachine
