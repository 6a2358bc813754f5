import Bongus.Ipc.ConfigSnapshot

/-!
# The command protocol

`AlphaInstruction::protocol_error` of `execution_engine/src/ipc.rs`: the first reason for which a
command is refused at a given time, or none. A command that distributes a configuration has checks
of its own (`configSyncProtocolError`) and shares the last ones, on its window and its hash
(`sealError`), with the commands that trade.
-/

set_option autoImplicit false
set_option relaxedAutoImplicit false

namespace Bongus.Ipc

open Num Lib.Float64 Lib.Text

/-- A check that gives its reason when it fails. -/
def failsIf (condition : Prop) [Decidable condition] (reason : String) : Option String :=
  if condition then some reason else none

@[simp] theorem failsIf_eq_none {condition : Prop} [Decidable condition] {reason : String} :
    failsIf condition reason = none ↔ ¬ condition := by
  unfold failsIf
  split_ifs with h
  · simp [h]
  · simp [h]

theorem orElse_eq_none {first second : Option String} :
    (first <|> second) = none ↔ first = none ∧ second = none := by
  cases first <;> simp

/-- Addition of a positive number to a time of 64 bits. -/
def saturatingAdd (time added : ℤ) : ℤ := min (time + added) (2 ^ 63 - 1)

def canonicalNonnegativeDecimal (raw : String) : Option ExactDecimal :=
  let text := raw.toList
  if text = [] ∨ text.head? = some '+' ∨ text.head? = some '-' ∨
      text.any (fun c ↦ c = 'e' || c = 'E') ∨
      (1 < text.length ∧ text.head? = some '0' ∧ text.take 2 ≠ ['0', '.']) ∨
      text.getLast? = some '.' ∨ (text.any (· = '.') ∧ text.getLast? = some '0') then none
  else
    match (ExactDecimal.fromStr raw).toOption with
    | none => none
    | some parsed =>
      if parsed.cmp .zero = .lt ∨ parsed.display ≠ raw then none else some parsed

def redundantFloatMatchesDecimal (value : F64) (exact : ExactDecimal) : Bool :=
  value.isFinite && 0 ≤ value.value && ExactDecimal.fromF64 value = some exact

variable (crates : Crates)

namespace AlphaInstruction

/-- The window of the command and its hash. -/
def sealError (instruction : AlphaInstruction) (nowMs : ℤ) : Option String :=
  let created := instruction.createdAtMs.getD 0
  let deadline := instruction.deadlineAtMs.getD 0
  let hash := orEmpty instruction.commandHash
  failsIf (created ≤ 0 ∨ deadline ≤ created ∨ deadline - created > maxCommandTtlMs)
      "invalid_command_window" <|>
    failsIf (created > saturatingAdd nowMs 30000) "created_at_in_future" <|>
    failsIf (deadline ≤ nowMs) "expired_command" <|>
    failsIf (¬ isHexDigest hash) "invalid_command_hash" <|>
    failsIf (instruction.semanticFingerprint crates ≠ hash) "command_hash_mismatch"

/-- A field of a trading command is set on a configuration command. -/
def unexpectedConfigSyncField (instruction : AlphaInstruction) : Bool :=
  (instruction.symbol.any fun symbol ↦ !isBlank unicodeBlank symbol) ||
    !instruction.quantity.isZero || !instruction.urgency.isZero ||
    !instruction.maxSlippageBps.isZero || !instruction.exposureScale.isZero ||
    instruction.routePolicy.isSome || instruction.routeModelVersion.isSome ||
    instruction.maxUnhedgedNotionalMs.isSome || instruction.routeSliceCount.isSome ||
    instruction.spotLegId.isSome || instruction.perpLegId.isSome ||
    instruction.spotClientOrderId.isSome || instruction.perpClientOrderId.isSome ||
    instruction.direction.isSome || instruction.skipSpotLeg || instruction.skipPerpLeg ||
    instruction.spotQuantity.isSome || instruction.perpQuantity.isSome ||
    instruction.requestedQuantityDecimal.isSome ||
    instruction.normalizedCommonEntryQuantityDecimal.isSome ||
    instruction.actualSpotInventoryDecimal.isSome ||
    instruction.actualFuturesInventoryDecimal.isSome ||
    instruction.exitSpotQuantityDecimal.isSome ||
    instruction.exitFuturesQuantityDecimal.isSome ||
    instruction.heartbeatId.isSome || instruction.spotEntryPrice.isSome ||
    instruction.perpEntryPrice.isSome || instruction.spotMarkPrice.isSome ||
    instruction.perpMarkPrice.isSome

def configSyncProtocolError (instruction : AlphaInstruction) (nowMs : ℤ) : Option String :=
  failsIf (instruction.schemaVersion ≠ some executionProtocolVersion)
      "unsupported_schema_version" <|>
    failsIf (trimmed instruction.intent ≠ configSyncIntent) "invalid_config_sync_intent" <|>
    failsIf (missing instruction.intentId) "missing_intent_id" <|>
    failsIf (missing instruction.producerId) "missing_producer_id" <|>
    failsIf (missing instruction.accountId ∨ missing instruction.environment ∨
      missing instruction.strategyId ∨ missing instruction.cycleId) "missing_command_context" <|>
    failsIf (instruction.sequence.getD 0 = 0) "invalid_sequence" <|>
    failsIf instruction.unexpectedConfigSyncField "unexpected_config_sync_field" <|>
    instruction.sealError crates nowMs <|>
    match instruction.validateConfigSyncSnapshot crates with
    | .ok _ => none
    | .error error => some error.code

/-- The ids of the order legs and of the orders. -/
def identityError (instruction : AlphaInstruction) : Option String :=
  let intentId := trimmed (orEmpty instruction.intentId)
  failsIf (missing instruction.intentId) "missing_intent_id" <|>
    failsIf (missing instruction.producerId) "missing_producer_id" <|>
    failsIf (missing instruction.accountId ∨ missing instruction.environment ∨
      missing instruction.strategyId ∨ missing instruction.cycleId ∨
      missing instruction.configVersionHash ∨ missing instruction.spotLegId ∨
      missing instruction.perpLegId) "missing_command_context" <|>
    failsIf (missing instruction.spotClientOrderId ∨ missing instruction.perpClientOrderId)
      "missing_client_order_ids" <|>
    failsIf (36 < (orEmpty instruction.spotClientOrderId).utf8ByteSize ∨
      36 < (orEmpty instruction.perpClientOrderId).utf8ByteSize) "invalid_client_order_ids" <|>
    failsIf (instruction.spotClientOrderId ≠
        some (deterministicClientOrderId crates intentId .spot) ∨
      instruction.perpClientOrderId ≠ some (deterministicClientOrderId crates intentId .perp) ∨
      instruction.spotLegId ≠ some (intentId ++ ":spot") ∨
      instruction.perpLegId ≠ some (intentId ++ ":perp")) "non_deterministic_leg_ids" <|>
    failsIf (instruction.sequence.getD 0 = 0) "invalid_sequence"

def isEntry (instruction : AlphaInstruction) : Bool :=
  trimmed instruction.intent ∈ ["ENTER_LONG", "ENTER_SHORT"]

def isExit (instruction : AlphaInstruction) : Bool :=
  trimmed instruction.intent ∈ ["EXIT_LONG", "EXIT_SHORT"]

def routePolicies : List String :=
  ["legacy_dual_maker", "post_only_dual", "maker_lead_ioc", "simultaneous_ioc", "sliced_ioc",
    "emergency_reduce_only"]

/-- The route a command asks for and the budget of the hedge. -/
def routeError (instruction : AlphaInstruction) : Option String :=
  let routePolicy := orEmpty instruction.routePolicy
  let slices := instruction.routeSliceCount.getD 0
  failsIf (routePolicy ∉ routePolicies) "unsupported_route_policy" <|>
    failsIf (¬ instruction.isEntry ∧ ¬ instruction.isExit) "unsupported_intent" <|>
    failsIf (routePolicy = "emergency_reduce_only" ∧ ¬ instruction.isExit)
      "emergency_route_exit_only" <|>
    -- Other routes stay in shadow mode: they are known, and not executed.
    failsIf (routePolicy ≠ "legacy_dual_maker" ∧ routePolicy ≠ "emergency_reduce_only")
      "route_policy_not_promoted" <|>
    failsIf (missing instruction.routeModelVersion) "missing_route_model_version" <|>
    failsIf (instruction.maxUnhedgedNotionalMs.all fun budget ↦
      !budget.isFinite || budget.value ≤ 0) "invalid_hedge_risk_budget" <|>
    failsIf (slices = 0 ∨ 16 < slices) "invalid_route_slice_count" <|>
    failsIf (routePolicy ≠ "sliced_ioc" ∧ slices ≠ 1) "invalid_route_slice_count" <|>
    failsIf (missing instruction.symbol) "missing_symbol"

/-- A number between zero and one. -/
def inUnitInterval (value : F64) : Bool := 0 ≤ value.value && value.value ≤ 1

def invalidNumeric (instruction : AlphaInstruction) : Bool :=
  !instruction.quantity.isFinite || !instruction.urgency.isFinite ||
    !instruction.maxSlippageBps.isFinite || !instruction.exposureScale.isFinite ||
    instruction.quantity.value < 0 || !inUnitInterval instruction.urgency ||
    instruction.maxSlippageBps.value < 0 || !inUnitInterval instruction.exposureScale ||
    instruction.exposureScale.isZero ||
    (instruction.spotQuantity.any fun value ↦ !value.isFinite || value.value < 0) ||
    (instruction.perpQuantity.any fun value ↦ !value.isFinite || value.value < 0)

/-- An entry says nothing about inventory. -/
def entryError (instruction : AlphaInstruction) : Option String :=
  failsIf (instruction.actualSpotInventoryDecimal.isSome ∨
    instruction.actualFuturesInventoryDecimal.isSome ∨
    instruction.exitSpotQuantityDecimal.isSome ∨
    instruction.exitFuturesQuantityDecimal.isSome ∨ instruction.spotQuantity.isSome ∨
    instruction.perpQuantity.isSome ∨ instruction.skipSpotLeg ∨ instruction.skipPerpLeg)
    "entry_carries_exit_exposure_semantics"

/-- A decimal an exit must carry. -/
def readDecimal (raw : Option String) (reason : String) : Except String ExactDecimal :=
  match raw.bind canonicalNonnegativeDecimal with
  | none => .error reason
  | some value => .ok value

/-- The quantities of an exit: within the inventory, and agreeing with the skipped legs and with the
redundant floats. -/
def exitCheck (instruction : AlphaInstruction) : Except String Unit := do
  let actualSpot ← readDecimal instruction.actualSpotInventoryDecimal
    "invalid_actual_spot_inventory_decimal"
  let actualFutures ← readDecimal instruction.actualFuturesInventoryDecimal
    "invalid_actual_futures_inventory_decimal"
  let exitSpot ← readDecimal instruction.exitSpotQuantityDecimal
    "invalid_exit_spot_quantity_decimal"
  let exitFutures ← readDecimal instruction.exitFuturesQuantityDecimal
    "invalid_exit_futures_quantity_decimal"
  if exitSpot.cmp actualSpot = .gt ∨ exitFutures.cmp actualFutures = .gt then
    throw "exit_quantity_exceeds_actual_inventory"
  if instruction.skipSpotLeg ≠ decide (exitSpot = .zero) ∨
      instruction.skipPerpLeg ≠ decide (exitFutures = .zero) ∨
      (instruction.skipSpotLeg ∧ instruction.skipPerpLeg) then
    throw "exit_skip_clamp_mismatch"
  if ¬ (instruction.spotQuantity.any fun value ↦ redundantFloatMatchesDecimal value exitSpot) ∨
      ¬ (instruction.perpQuantity.any fun value ↦
        redundantFloatMatchesDecimal value exitFutures) then
    throw "exit_quantity_decimal_mismatch"

/-- The reason of a check that failed. -/
def errorOf (result : Except String Unit) : Option String :=
  match result with
  | .ok () => none
  | .error reason => some reason

/-- The quantities of a command. -/
def quantityError (instruction : AlphaInstruction) : Option String :=
  failsIf instruction.invalidNumeric "invalid_command_numeric" <|>
    failsIf (instruction.direction.any fun direction ↦ direction ∉ ["long", "short"])
      "invalid_direction" <|>
    match (instruction.requestedQuantityDecimal.bind canonicalNonnegativeDecimal).filter
        ExactDecimal.isPositive with
    | none => some "invalid_requested_quantity_decimal"
    | some requested =>
      failsIf (¬ redundantFloatMatchesDecimal instruction.quantity requested)
          "quantity_decimal_mismatch" <|>
        failsIf instruction.normalizedCommonEntryQuantityDecimal.isSome
          "derived_common_quantity_in_command" <|>
        (if instruction.isEntry then instruction.entryError
          else errorOf instruction.exitCheck) <|>
        failsIf (instruction.heartbeatId.isSome ∨ instruction.configCanonicalJson.isSome ∨
          instruction.spotEntryPrice.isSome ∨ instruction.perpEntryPrice.isSome ∨
          instruction.spotMarkPrice.isSome ∨ instruction.perpMarkPrice.isSome)
          "unexpected_risk_command_field"

def protocolError (instruction : AlphaInstruction) (nowMs : ℤ) : Option String :=
  if instruction.isConfigSync then instruction.configSyncProtocolError crates nowMs
  else
    failsIf (instruction.schemaVersion ≠ some executionProtocolVersion)
        "unsupported_schema_version" <|>
      instruction.identityError crates <|> instruction.routeError <|>
      instruction.quantityError <|> instruction.sealError crates nowMs

/-! ### What a command that passes carries -/

/-- The client order ids of a command: none on a configuration, and those that the id of the intent
determines on a command that trades. -/
def HasOrderIds (instruction : AlphaInstruction) : Prop :=
  (instruction.isConfigSync = true ∧ instruction.spotClientOrderId = none ∧
    instruction.perpClientOrderId = none) ∨
  (instruction.isConfigSync = false ∧
    instruction.spotClientOrderId =
      some (deterministicClientOrderId crates (trimmed (orEmpty instruction.intentId)) .spot) ∧
    instruction.perpClientOrderId =
      some (deterministicClientOrderId crates (trimmed (orEmpty instruction.intentId)) .perp))

/-- What the journal relies on: the command names its intent and its producer, has a sequence, and
its hash is that of its text. -/
structure Identified (instruction : AlphaInstruction) : Prop where
  intent : missing instruction.intentId = false
  producer : missing instruction.producerId = false
  sequence : instruction.sequence.getD 0 ≠ 0
  version : instruction.schemaVersion = some executionProtocolVersion
  hash : orEmpty instruction.commandHash = instruction.semanticFingerprint crates
  orders : instruction.HasOrderIds crates

variable {crates}

theorem hash_of_sealError {instruction : AlphaInstruction} {nowMs : ℤ}
    (hpassed : instruction.sealError crates nowMs = none) :
    orEmpty instruction.commandHash = instruction.semanticFingerprint crates := by
  simp only [sealError, orElse_eq_none, failsIf_eq_none,
    not_not] at hpassed
  exact hpassed.2.2.2.2.symm

theorem identified_of_configSync {instruction : AlphaInstruction} {nowMs : ℤ}
    (hconfig : instruction.isConfigSync = true)
    (hpassed : instruction.configSyncProtocolError crates nowMs = none) :
    instruction.Identified crates := by
  simp only [configSyncProtocolError, orElse_eq_none,
    failsIf_eq_none, not_not, Bool.not_eq_true] at hpassed
  obtain ⟨hversion, -, hintent, hproducer, -, hsequence, hfields, hseal, -⟩ := hpassed
  have hspot : instruction.spotClientOrderId = none := by
    cases hid : instruction.spotClientOrderId with
    | none => rfl
    | some id => simp [unexpectedConfigSyncField, hid] at hfields
  have hperp : instruction.perpClientOrderId = none := by
    cases hid : instruction.perpClientOrderId with
    | none => rfl
    | some id => simp [unexpectedConfigSyncField, hid] at hfields
  exact ⟨hintent, hproducer, hsequence, hversion, hash_of_sealError hseal,
    Or.inl ⟨hconfig, hspot, hperp⟩⟩

/-- A command that passes is identified. -/
theorem identified_of_protocolError {instruction : AlphaInstruction} {nowMs : ℤ}
    (hpassed : instruction.protocolError crates nowMs = none) :
    instruction.Identified crates := by
  unfold protocolError at hpassed
  split_ifs at hpassed with hconfig
  · exact identified_of_configSync hconfig hpassed
  · simp only [identityError, orElse_eq_none, failsIf_eq_none, not_not,
      not_or, Bool.not_eq_true, ne_eq] at hpassed hconfig
    obtain ⟨hversion, ⟨hintent, hproducer, -, -, -, ⟨hspot, hperp, -⟩, hsequence⟩, -, -, hseal⟩ :=
      hpassed
    exact ⟨hintent, hproducer, hsequence, hversion, hash_of_sealError hseal,
      Or.inr ⟨hconfig, hspot, hperp⟩⟩

end AlphaInstruction

end Bongus.Ipc
