import Bongus.Ipc.Protocol
import Bongus.Lib.Records
import Mathlib.Data.List.Sort

/-!
# Command envelopes

The producer's side of the command protocol, `bongus/ipc/protocol.py`: the body of a command, its
canonical bytes and its hash, and `buildCommandEnvelope`, which checks a payload and puts it into
the envelope that is sent. A payload is a record of the dynamic language. `instruction` is the
command the engine decodes from an envelope, and `identity_of_built` says which intent, producer
and sequence it carries.
-/

set_option autoImplicit false
set_option relaxedAutoImplicit false

namespace Bongus.Outbox

open Ipc Lib.Fallible Lib.Float64 Lib.Records Lib.Text

/-- What the producer takes from its libraries: the hexadecimal SHA-256 of a text, the case
mappings, the JSON reader and writer, and the double of a JSON number. -/
structure Python where
  sha256 : String → String
  upper : String → String
  lower : String → String
  loads : String → Option Json
  dumps : Json → Option String
  readFloat : String → Option F64

def strip (text : String) : String := trim separatorBlank text

/-- The text of a value in quotes, as messages show it. -/
def shown (text : String) : String := "'" ++ text ++ "'"

/-- `str(value or "")`. The digits of a double are not those of the source. They are only compared
with names, which start with a letter. -/
def strOrEmpty : Value → String
  | .none => ""
  | .bool value => if value then "True" else ""
  | .int value => if value = 0 then "" else toString value
  | .float value => if value.isZero then "" else value.display
  | .text value => value
  | .other => "other"

def riskChangingIntents : List String := ["ENTER_LONG", "ENTER_SHORT", "EXIT_LONG", "EXIT_SHORT"]

def ackStates : List String := ["RECEIVED", "VALIDATED", "SUBMITTED", "TERMINAL", "REJECTED"]

def activeRoutePolicies : List String := ["legacy_dual_maker", "emergency_reduce_only"]

def transportFields : List String := ["producer_id", "sequence", "created_at_ms", "deadline_at_ms"]

def derivedFields : List String :=
  ["schema_version", "command_hash", "spot_client_order_id", "perp_client_order_id", "spot_leg_id",
    "perp_leg_id"]

def riskPayloadFields : List String :=
  ["account_id", "environment", "strategy_id", "cycle_id", "config_version_hash", "symbol",
    "intent", "quantity", "urgency", "max_slippage_bps", "route_policy", "route_model_version",
    "max_unhedged_notional_ms", "route_slice_count", "exposure_scale", "intent_id", "direction",
    "skip_spot_leg", "skip_perp_leg", "spot_quantity", "perp_quantity",
    "requested_quantity_decimal", "actual_spot_inventory_decimal",
    "actual_futures_inventory_decimal", "exit_spot_quantity_decimal",
    "exit_futures_quantity_decimal"]

def riskEnvelopeFields : List String := riskPayloadFields ++ transportFields ++ derivedFields

def configSyncPayloadFields : List String :=
  ["account_id", "environment", "strategy_id", "cycle_id", "config_version_hash",
    "config_canonical_json", "intent", "intent_id"]

def configSyncDerivedFields : List String := ["schema_version", "command_hash"]

def configSyncEnvelopeFields : List String :=
  configSyncPayloadFields ++ transportFields ++ configSyncDerivedFields

/-- The names of a record that are not allowed, in the order of a message. -/
def unknownNames (record : Record) (allowed : List String) : List String :=
  ((names record).filter fun name ↦ !allowed.contains name).insertionSort (· ≤ ·)

def refuseUnknown (kind : String) (record : Record) (allowed : List String) :
    Except String Unit :=
  let unknown := unknownNames record allowed
  if unknown ≠ [] then
    throw ("unknown " ++ kind ++ " field(s): " ++ ", ".intercalate unknown)
  else pure ()

/-! ### Typed values -/

def floatOf (name : String) (value : Value) : Except String F64 := do
  let result ← match value with
    | .none => pure 0
    | .float value => pure value
    | .int value =>
      match F64.ofInt value with
      | some value => pure value
      | none => throw "int too large to convert to float"
    | _ => throw (name ++ " must be numeric")
  if ¬ result.isFinite then throw (name ++ " must be finite")
  return result

def boolOf (name : String) : Value → Except String Bool
  | .none => .ok false
  | .bool value => .ok value
  | _ => .error (name ++ " must be boolean")

def integerOf (name : String) (default : ℤ) : Value → Except String ℤ
  | .none => .ok default
  | .int value => .ok value
  | _ => .error (name ++ " must be an integer")

def stringOf (name default : String) : Value → Except String String
  | .none => .ok default
  | .text value => .ok value
  | _ => .error (name ++ " must be a string")

/-- The digits before and after the point. -/
def splitPoint (text : String) : List Char × Option (List Char) :=
  match text.toList.span (· ≠ '.') with
  | (whole, []) => (whole, none)
  | (whole, _ :: fraction) => (whole, some fraction)

/-- A number without sign, exponent, leading zero or trailing fractional zero. -/
def isCanonicalDecimal (text : String) : Bool :=
  let parts := splitPoint text
  let whole := parts.1
  whole ≠ [] && whole.all Char.isDigit && (whole = ['0'] || whole.head? ≠ some '0') &&
    parts.2.all fun fraction ↦
      fraction ≠ [] && fraction.all Char.isDigit && fraction.getLast? ≠ some '0'

def fractionDigits (text : String) : List Char := (splitPoint text).2.getD []

/-- The digits of a number without its point, as a natural number. -/
def coefficient (text : String) : ℕ :=
  ((splitPoint text).1 ++ fractionDigits text).foldl (fun n c ↦ 10 * n + (c.toNat - 48)) 0

/-- The number that a canonical decimal writes. -/
def decimalValue (text : String) : ℚ := coefficient text / 10 ^ (fractionDigits text).length

def maxExactDecimalScale : ℕ := 28

def canonicalDecimalString (name : String) : Value → Except String String
  | .text text => do
    if ¬ isCanonicalDecimal text then throw (name ++ " must be a canonical decimal string")
    if maxExactDecimalScale < (fractionDigits text).length then
      throw (name ++ " exceeds supported scale 28")
    if 38 < (toString (coefficient text)).length then
      throw (name ++ " exceeds supported precision")
    return text
  | _ => .error (name ++ " must be a canonical decimal string")

def decimalStringFromNumber (name : String) (number : F64) : Except String String := do
  if number.value < 0 then throw (name ++ " must be non-negative")
  let raw := number.display
  canonicalDecimalString name (.text (if raw = "-0" then "0" else raw))

def redundantFloatMatches (name decimalText : String) (value : Value) : Except String F64 := do
  let redundant ← floatOf name value
  if redundant.value < 0 then throw (name ++ " must be non-negative")
  let written ← decimalStringFromNumber name redundant
  if written ≠ decimalText then
    throw (name ++ " does not exactly match its authoritative decimal field")
  return redundant

/-! ### Readers of fields -/

/-- A text field, its default, and what is done to its text. -/
def textField (name default : String) (write : String → String) : Reader := fun record ↦ do
  let text ← stringOf name default (field record name)
  return .text (write text)

def strippedField (name : String) : Reader := textField name "" strip

def integerField (name : String) (default : ℤ) : Reader := fun record ↦ do
  let value ← integerOf name default (field record name)
  return .int value

def floatField (name : String) : Reader := fun record ↦ do
  let value ← floatOf name (field record name)
  return .float value

def optionalFloatField (name : String) : Reader := fun record ↦
  if field record name = .none then pure .none else floatField name record

def boolField (name : String) : Reader := fun record ↦ do
  let value ← boolOf name (field record name)
  return .bool value

def decimalField (name : String) : Reader := fun record ↦ do
  let text ← canonicalDecimalString name (field record name)
  return .text text

def optionalDecimalField (name : String) : Reader := fun record ↦
  if field record name = .none then pure .none else decimalField name record

variable (python : Python)

def deterministicClientOrderId (intentId leg : String) : String :=
  let normalizedLeg := if python.lower leg = "spot" then "s" else "p"
  let digest := python.sha256 (intentId ++ ":" ++ normalizedLeg)
  "bngs_" ++ normalizedLeg ++ "_" ++ String.ofList (digest.toList.take 24)

/-- A text that is derived from the intent unless the record has it. -/
def derivedField (name : String) (derive : String → String) : Reader := fun record ↦ do
  let intentId ← stringOf "intent_id" "" (field record "intent_id")
  textField name (derive (strip intentId)) strip record

def directionField : Reader := fun record ↦
  if field record "direction" = .none then pure .none
  else textField "direction" "" (fun text ↦ python.lower (strip text)) record

def quantityField : Reader := fun record ↦ do
  let requested ← canonicalDecimalString "requested_quantity_decimal"
    (field record "requested_quantity_decimal")
  let quantity ← redundantFloatMatches "quantity" requested (field record "quantity")
  return .float quantity

/-- The default stands for a missing name only, not for the value `none`. -/
def hedgeBudgetField : Reader := fun record ↦
  match record.lookup "max_unhedged_notional_ms" with
  | none => pure (.float defaultMaxUnhedgedNotionalMs)
  | some _ => floatField "max_unhedged_notional_ms" record

/-! ### Command bodies -/

def riskBodyFields : List (String × Reader) :=
  [("schema_version", integerField "schema_version" executionProtocolVersion),
    ("account_id", strippedField "account_id"),
    ("environment", strippedField "environment"),
    ("strategy_id", strippedField "strategy_id"),
    ("cycle_id", strippedField "cycle_id"),
    ("config_version_hash", strippedField "config_version_hash"),
    ("symbol", textField "symbol" "" fun text ↦ python.upper (strip text)),
    ("intent", textField "intent" "" fun text ↦ python.upper (strip text)),
    ("quantity", quantityField),
    ("urgency", floatField "urgency"),
    ("max_slippage_bps", floatField "max_slippage_bps"),
    ("route_policy",
      textField "route_policy" "legacy_dual_maker" fun text ↦ python.lower (strip text)),
    ("route_model_version", textField "route_model_version" "legacy-v1" strip),
    ("max_unhedged_notional_ms", hedgeBudgetField),
    ("route_slice_count", integerField "route_slice_count" 1),
    ("exposure_scale", floatField "exposure_scale"),
    ("intent_id", strippedField "intent_id"),
    ("direction", directionField python),
    ("skip_spot_leg", boolField "skip_spot_leg"),
    ("skip_perp_leg", boolField "skip_perp_leg"),
    ("spot_quantity", optionalFloatField "spot_quantity"),
    ("perp_quantity", optionalFloatField "perp_quantity"),
    ("requested_quantity_decimal", decimalField "requested_quantity_decimal"),
    ("actual_spot_inventory_decimal", optionalDecimalField "actual_spot_inventory_decimal"),
    ("actual_futures_inventory_decimal", optionalDecimalField "actual_futures_inventory_decimal"),
    ("exit_spot_quantity_decimal", optionalDecimalField "exit_spot_quantity_decimal"),
    ("exit_futures_quantity_decimal", optionalDecimalField "exit_futures_quantity_decimal"),
    ("spot_client_order_id", derivedField "spot_client_order_id" fun intentId ↦
      deterministicClientOrderId python intentId "spot"),
    ("perp_client_order_id", derivedField "perp_client_order_id" fun intentId ↦
      deterministicClientOrderId python intentId "perp"),
    ("spot_leg_id", derivedField "spot_leg_id" (· ++ ":spot")),
    ("perp_leg_id", derivedField "perp_leg_id" (· ++ ":perp"))]

/-- The fields that are read before the body is put together, so that their errors come first. -/
def readAhead : List String :=
  ["intent_id", "direction", "schema_version", "route_slice_count", "requested_quantity_decimal",
    "actual_spot_inventory_decimal", "actual_futures_inventory_decimal",
    "exit_spot_quantity_decimal", "exit_futures_quantity_decimal"]

def canonicalCommandBody (payload : Record) : Except String Record := do
  refuseUnknown "risk-command" payload riskEnvelopeFields
  let table := riskBodyFields python
  let _ ← readFields (readAhead.filterMap fun name ↦ (table.lookup name).map (name, ·)) payload
  let body ← readFields table payload
  if field body "schema_version" ≠ .int executionProtocolVersion then
    throw "unsupported risk-command schema_version"
  return body

/-- The checks of a positive limit of the configuration. -/
def checkLimit (fields : List (String × Json)) (name : String) : Except String Unit :=
  match fields.lookup name with
  | some (.number text _) =>
    match python.readFloat text with
    | none => throw "int too large to convert to float"
    | some value =>
      if ¬ value.isFinite ∨ value.value ≤ 0 then throw (name ++ " must be positive and finite")
      else pure ()
  | _ => throw (name ++ " must be numeric")

def consensusKeys : List String :=
  ["pause_new_entries", "per_symbol_notional_cap_usd", "max_gross_exposure_usd",
    "emergency_exit_max_retries", "emergency_exit_readback_attempts",
    "emergency_exit_max_slippage_bps"]

/-- The keys a document may have are those of the engine's schema. -/
def validateConfigDocument (canonicalJson declaredHash : String) : Except String Unit := do
  if canonicalJson = "" then throw "config_canonical_json is required"
  if ¬ isHexDigest declaredHash then throw "config_version_hash must be a lowercase SHA-256"
  if python.sha256 canonicalJson ≠ declaredHash then
    throw "config snapshot SHA-256 does not match its declaration"
  match python.loads canonicalJson with
  | none => throw "config_canonical_json is malformed"
  | some (.object fields) =>
    match python.dumps (.object fields) with
    | none => throw "config_canonical_json is malformed"
    | some reconstructed =>
      if reconstructed ≠ canonicalJson then throw "config_canonical_json is not canonical"
      let unknown := (fields.map Prod.fst).filter fun name ↦ !allowedKeys.contains name
      if unknown ≠ [] then
        throw ("unknown effective-config key(s): " ++
          ", ".intercalate (unknown.insertionSort (· ≤ ·)))
      let missing := consensusKeys.filter fun name ↦ !(fields.map Prod.fst).contains name
      if missing ≠ [] then
        throw ("missing consensus config key(s): " ++
          ", ".intercalate (missing.insertionSort (· ≤ ·)))
      if ((fields.lookup "pause_new_entries").bind Json.asBool).isNone then
        throw "pause_new_entries must be boolean"
      checkLimit python fields "per_symbol_notional_cap_usd"
      checkLimit python fields "max_gross_exposure_usd"
  | some _ => throw "config_canonical_json must contain an object"

def configSyncBodyFields : List (String × Reader) :=
  [("schema_version", integerField "schema_version" executionProtocolVersion),
    ("account_id", strippedField "account_id"),
    ("environment", strippedField "environment"),
    ("strategy_id", strippedField "strategy_id"),
    ("cycle_id", strippedField "cycle_id"),
    ("config_version_hash", strippedField "config_version_hash"),
    ("intent", textField "intent" "" fun text ↦ python.upper (strip text)),
    ("intent_id", strippedField "intent_id"),
    ("config_canonical_json", textField "config_canonical_json" "" id)]

def canonicalConfigSyncBody (payload : Record) : Except String Record := do
  refuseUnknown "config-sync" payload configSyncEnvelopeFields
  let body ← readFields (configSyncBodyFields python) payload
  if field body "intent" ≠ .text configSyncIntent then
    throw "config sync must use CONFIG_SYNC intent"
  if field body "schema_version" ≠ .int executionProtocolVersion then
    throw "unsupported config-sync schema_version"
  validateConfigDocument python (strOrEmpty (field body "config_canonical_json"))
    (strOrEmpty (field body "config_version_hash"))
  return body

/-! ### Canonical bytes -/

inductive Kind where
  | string
  | int
  | float
  | bool
  | optionalString
  | optionalFloat

/-- The bytes of a value, as text. A body has no value of another type than its kind. -/
def canonicalScalar : Kind → Value → String
  | .string, .text value => "s" ++ toString value.utf8ByteSize ++ ":" ++ value
  | .optionalString, .text value => "s" ++ toString value.utf8ByteSize ++ ":" ++ value
  | .int, .int value => "i" ++ toString value
  | .float, .float value => "f" ++ value.hexBits
  | .optionalFloat, .float value => "f" ++ value.hexBits
  | .bool, .bool value => if value then "b1" else "b0"
  | _, _ => "n"

def canonicalFieldTypes : List (String × Kind) :=
  [("schema_version", .int), ("account_id", .string), ("environment", .string),
    ("strategy_id", .string), ("cycle_id", .string), ("config_version_hash", .string),
    ("symbol", .string), ("intent", .string), ("quantity", .float), ("urgency", .float),
    ("max_slippage_bps", .float), ("route_policy", .string), ("route_model_version", .string),
    ("max_unhedged_notional_ms", .float), ("route_slice_count", .int), ("exposure_scale", .float),
    ("intent_id", .string), ("direction", .optionalString), ("skip_spot_leg", .bool),
    ("skip_perp_leg", .bool), ("spot_quantity", .optionalFloat),
    ("perp_quantity", .optionalFloat), ("requested_quantity_decimal", .string),
    ("actual_spot_inventory_decimal", .optionalString),
    ("actual_futures_inventory_decimal", .optionalString),
    ("exit_spot_quantity_decimal", .optionalString),
    ("exit_futures_quantity_decimal", .optionalString), ("spot_client_order_id", .string),
    ("perp_client_order_id", .string), ("spot_leg_id", .string), ("perp_leg_id", .string)]

def configSyncCanonicalFieldTypes : List (String × Kind) :=
  [("schema_version", .int), ("account_id", .string), ("environment", .string),
    ("strategy_id", .string), ("cycle_id", .string), ("config_version_hash", .string),
    ("intent", .string), ("intent_id", .string), ("config_canonical_json", .string)]

/-- The lines of the fields of a body after the line that names the domain. -/
def encodeBody (magic : String) (types : List (String × Kind)) (body : Record) : String :=
  magic ++ String.join (types.map fun entry ↦
    entry.1 ++ "=" ++ canonicalScalar entry.2 (field body entry.1) ++ "\n")

def isConfigSyncPayload (payload : Record) : Bool :=
  python.upper (strip (strOrEmpty (field payload "intent"))) = configSyncIntent

def canonicalCommandBytes (payload : Record) : Except String String := do
  if isConfigSyncPayload python payload then
    let body ← canonicalConfigSyncBody python payload
    return encodeBody "bongus-config-sync-command-v3\n" configSyncCanonicalFieldTypes body
  else
    let body ← canonicalCommandBody python payload
    return encodeBody "bongus-execution-command-v3\n" canonicalFieldTypes body

def commandHash (payload : Record) : Except String String := do
  let bytes ← canonicalCommandBytes python payload
  return python.sha256 bytes

/-! ### Envelopes -/

/-- The checks of the transport fields. -/
def checkTransport (producerId : String) (sequence ttlMs : ℤ) : Except String Unit := do
  if strip producerId = "" then throw "producer_id is required"
  if sequence ≤ 0 then throw "sequence must be positive"
  if ¬ (0 < ttlMs ∧ ttlMs ≤ maxCommandTtlMs) then
    throw ("ttl_ms must be between 1 and " ++ toString maxCommandTtlMs)

/-- Each of the named texts of a body is required. -/
def checkContext (body : Record) : List String → Except String Unit
  | [] => pure ()
  | name :: more => do
    if strOrEmpty (field body name) = "" then throw (name ++ " is required")
    checkContext body more

/-- A body with its transport fields and its hash. -/
def sealBody (body : Record) (producerId : String) (sequence ttlMs createdAtMs : ℤ) :
    Except String Record := do
  if createdAtMs ≤ 0 then throw "created_at_ms must be positive"
  let envelope := body ++
    [("producer_id", .text (strip producerId)), ("sequence", .int sequence),
      ("created_at_ms", .int createdAtMs), ("deadline_at_ms", .int (createdAtMs + ttlMs))]
  let hash ← commandHash python envelope
  return envelope ++ [("command_hash", .text hash)]

def buildConfigSyncEnvelope (payload : Record) (producerId : String)
    (sequence ttlMs createdAtMs : ℤ) : Except String Record := do
  refuseUnknown "config-sync" payload configSyncPayloadFields
  let body ← canonicalConfigSyncBody python payload
  if strOrEmpty (field body "intent_id") = "" then throw "CONFIG_SYNC requires intent_id"
  checkContext body ["account_id", "environment", "strategy_id", "cycle_id"]
  checkTransport producerId sequence ttlMs
  sealBody python body producerId sequence ttlMs createdAtMs

def startsWith (text start : String) : Bool := start.toList.isPrefixOf text.toList

/-- The value of a number of a body, zero for an absent one. -/
def numberOf (body : Record) (name : String) : ℚ :=
  match field body name with
  | .float value => value.value
  | .int value => value
  | _ => 0

def checkRoute (body : Record) : Except String Unit := do
  let intent := strOrEmpty (field body "intent")
  let routePolicy := strOrEmpty (field body "route_policy")
  let slices := numberOf body "route_slice_count"
  if routePolicy ∉ AlphaInstruction.routePolicies then
    throw ("unsupported route_policy " ++ shown routePolicy)
  if routePolicy = "emergency_reduce_only" ∧ ¬ startsWith intent "EXIT_" then
    throw "emergency_reduce_only is exit-only"
  if routePolicy ∉ activeRoutePolicies then
    throw ("route_policy " ++ shown routePolicy ++ " has not passed promotion gates")
  if strOrEmpty (field body "route_model_version") = "" then
    throw "route_model_version is required"
  if numberOf body "max_unhedged_notional_ms" ≤ 0 then
    throw "max_unhedged_notional_ms must be positive and finite"
  if ¬ (1 ≤ slices ∧ slices ≤ 16) then throw "route_slice_count must be between 1 and 16"
  if routePolicy ≠ "sliced_ioc" ∧ slices ≠ 1 then
    throw "route_slice_count > 1 requires sliced_ioc"

def checkNonNegative (body : Record) : List String → Except String Unit
  | [] => pure ()
  | name :: more => do
    if numberOf body name < 0 then throw (name ++ " must be non-negative")
    checkNonNegative body more

def exactExitFields : List String :=
  ["actual_spot_inventory_decimal", "actual_futures_inventory_decimal",
    "exit_spot_quantity_decimal", "exit_futures_quantity_decimal"]

def checkEntry (body : Record) : Except String Unit := do
  if exactExitFields.any fun name ↦ field body name ≠ .none then
    throw "ENTER cannot carry exit inventory or quantity semantics"
  if field body "spot_quantity" ≠ .none ∨ field body "perp_quantity" ≠ .none then
    throw "ENTER cannot carry legacy per-leg exit quantities"
  if field body "skip_spot_leg" = .bool true ∨ field body "skip_perp_leg" = .bool true then
    throw "ENTER cannot skip an exposure leg"

/-- The double of a leg of an exit repeats its decimal. -/
def checkRedundancy (body : Record) (decimalName floatName : String) : Except String Unit := do
  if field body floatName = .none then
    throw (floatName ++ " redundancy is required for protocol v3")
  let _ ← redundantFloatMatches floatName (strOrEmpty (field body decimalName))
    (field body floatName)
  return ()

def checkExit (body : Record) : Except String Unit := do
  let missing := exactExitFields.filter fun name ↦ field body name = .none
  if missing ≠ [] then
    throw ("EXIT requires exact actual inventory and per-leg exit quantities: " ++
      ", ".intercalate missing)
  let decimal (name : String) : ℚ := decimalValue (strOrEmpty (field body name))
  let exitSpot := decimal "exit_spot_quantity_decimal"
  let exitFutures := decimal "exit_futures_quantity_decimal"
  if decimal "actual_spot_inventory_decimal" < exitSpot ∨
      decimal "actual_futures_inventory_decimal" < exitFutures then
    throw "EXIT quantity cannot exceed actual inventory"
  if ¬ (field body "skip_spot_leg" = .bool true ↔ exitSpot = 0) then
    throw "skip_spot_leg must exactly match zero exit_spot_quantity_decimal"
  if ¬ (field body "skip_perp_leg" = .bool true ↔ exitFutures = 0) then
    throw "skip_perp_leg must exactly match zero exit_futures_quantity_decimal"
  if exitSpot = 0 ∧ exitFutures = 0 then throw "EXIT must contain at least one positive leg"
  checkRedundancy body "exit_spot_quantity_decimal" "spot_quantity"
  checkRedundancy body "exit_futures_quantity_decimal" "perp_quantity"

def checkQuantities (body : Record) : Except String Unit := do
  checkNonNegative body ["quantity", "max_slippage_bps", "spot_quantity", "perp_quantity"]
  if ¬ (0 ≤ numberOf body "urgency" ∧ numberOf body "urgency" ≤ 1) then
    throw "urgency must be between 0 and 1"
  if ¬ (0 < numberOf body "exposure_scale" ∧ numberOf body "exposure_scale" ≤ 1) then
    throw "exposure_scale must be between 0 and 1"
  if field body "direction" ∉ [Value.none, .text "long", .text "short"] then
    throw "direction must be long, short, or absent"
  if decimalValue (strOrEmpty (field body "requested_quantity_decimal")) ≤ 0 then
    throw "requested_quantity_decimal must be positive"
  if startsWith (strOrEmpty (field body "intent")) "ENTER_" then checkEntry body
  else checkExit body

def buildCommandEnvelope (payload : Record) (producerId : String)
    (sequence ttlMs createdAtMs : ℤ) : Except String Record :=
  if isConfigSyncPayload python payload then
    buildConfigSyncEnvelope python payload producerId sequence ttlMs createdAtMs
  else do
    refuseUnknown "risk-command" payload riskPayloadFields
    let body ← canonicalCommandBody python payload
    let intent := strOrEmpty (field body "intent")
    if intent ∉ riskChangingIntents then
      throw ((if intent = "" then "<missing>" else intent) ++ " is not a risk-changing intent")
    if strOrEmpty (field body "intent_id") = "" then
      throw "risk-changing commands require intent_id"
    checkTransport producerId sequence ttlMs
    if strOrEmpty (field body "symbol") = "" then throw "symbol is required"
    checkRoute body
    checkQuantities body
    checkContext body
      ["account_id", "environment", "strategy_id", "cycle_id", "config_version_hash"]
    sealBody python body producerId sequence ttlMs createdAtMs

/-! ### The command the engine decodes -/

def optionalText : Value → Option String
  | .text value => some value
  | _ => none

def optionalNumber : Value → Option F64
  | .float value => some value
  | _ => none

def optionalInteger : Value → Option ℤ
  | .int value => some value
  | _ => none

def instruction (envelope : Record) : AlphaInstruction :=
  let text (name : String) := optionalText (field envelope name)
  let number (name : String) := optionalNumber (field envelope name)
  let integer (name : String) := optionalInteger (field envelope name)
  { schemaVersion := (integer "schema_version").map Int.toNat
    producerId := text "producer_id"
    sequence := (integer "sequence").map Int.toNat
    createdAtMs := integer "created_at_ms"
    deadlineAtMs := integer "deadline_at_ms"
    commandHash := text "command_hash"
    accountId := text "account_id"
    environment := text "environment"
    strategyId := text "strategy_id"
    cycleId := text "cycle_id"
    configVersionHash := text "config_version_hash"
    configCanonicalJson := text "config_canonical_json"
    spotLegId := text "spot_leg_id"
    perpLegId := text "perp_leg_id"
    symbol := text "symbol"
    intent := (text "intent").getD ""
    quantity := (number "quantity").getD 0
    urgency := (number "urgency").getD 0
    maxSlippageBps := (number "max_slippage_bps").getD 0
    routePolicy := text "route_policy"
    routeModelVersion := text "route_model_version"
    maxUnhedgedNotionalMs := number "max_unhedged_notional_ms"
    routeSliceCount := (integer "route_slice_count").map Int.toNat
    exposureScale := (number "exposure_scale").getD 0
    intentId := text "intent_id"
    direction := text "direction"
    skipSpotLeg := field envelope "skip_spot_leg" = .bool true
    skipPerpLeg := field envelope "skip_perp_leg" = .bool true
    spotQuantity := number "spot_quantity"
    perpQuantity := number "perp_quantity"
    requestedQuantityDecimal := text "requested_quantity_decimal"
    actualSpotInventoryDecimal := text "actual_spot_inventory_decimal"
    actualFuturesInventoryDecimal := text "actual_futures_inventory_decimal"
    exitSpotQuantityDecimal := text "exit_spot_quantity_decimal"
    exitFuturesQuantityDecimal := text "exit_futures_quantity_decimal"
    spotClientOrderId := text "spot_client_order_id"
    perpClientOrderId := text "perp_client_order_id" }

/-! ### Identity of a built envelope -/

/-- The intent a payload names. -/
def payloadIntentId (payload : Record) : String := strip (strOrEmpty (field payload "intent_id"))

theorem strippedField_eq_ok {name : String} {record : Record} {value : Value}
    (hread : strippedField name record = .ok value) :
    value = .text (strip (strOrEmpty (field record name))) := by
  simp only [strippedField, textField, bind_eq_ok, pure_eq_ok] at hread
  obtain ⟨text, htext, rfl⟩ := hread
  cases hfield : field record name with
  | none =>
    obtain rfl : "" = text := by simpa [hfield, stringOf] using htext
    rfl
  | text value =>
    obtain rfl : value = text := by simpa [hfield, stringOf] using htext
    rfl
  | bool value => simp [hfield, stringOf] at htext
  | int value => simp [hfield, stringOf] at htext
  | float value => simp [hfield, stringOf] at htext
  | other => simp [hfield, stringOf] at htext

variable {python : Python}

theorem exists_fields_of_body {payload body : Record}
    (hbody : canonicalCommandBody python payload = .ok body) :
    readFields (riskBodyFields python) payload = .ok body := by
  simp only [canonicalCommandBody, throw_bind, bind_eq_ok, pure_eq_ok, check_eq_ok] at hbody
  obtain ⟨-, -, -, -, read, hread, -, rfl⟩ := hbody
  exact hread

theorem exists_fields_of_configSyncBody {payload body : Record}
    (hbody : canonicalConfigSyncBody python payload = .ok body) :
    readFields (configSyncBodyFields python) payload = .ok body := by
  simp only [canonicalConfigSyncBody, throw_bind, bind_eq_ok, pure_eq_ok, check_eq_ok] at hbody
  obtain ⟨-, -, read, hread, -, -, -, -, rfl⟩ := hbody
  exact hread

/-- A table of a body reads the intent and none of the fields that the envelope adds. -/
structure BodyTable (table : List (String × Reader)) : Prop where
  intent : table.lookup "intent_id" = some (strippedField "intent_id")
  added : ∀ name ∈ transportFields ++ ["command_hash"], name ∉ table.map Prod.fst

theorem bodyTable_risk : BodyTable (riskBodyFields python) :=
  ⟨rfl, by simp [transportFields, riskBodyFields]⟩

theorem bodyTable_configSync : BodyTable (configSyncBodyFields python) :=
  ⟨rfl, by simp [transportFields, configSyncBodyFields]⟩

variable {payload envelope : Record} {producerId : String} {sequence ttlMs createdAtMs : ℤ}

theorem exists_body_of_built
    (hbuilt : buildCommandEnvelope python payload producerId sequence ttlMs createdAtMs =
      .ok envelope) :
    ∃ table body, BodyTable table ∧ readFields table payload = .ok body ∧
      checkTransport producerId sequence ttlMs = .ok () ∧
      sealBody python body producerId sequence ttlMs createdAtMs = .ok envelope := by
  unfold buildCommandEnvelope at hbuilt
  split_ifs at hbuilt with hconfig
  · simp only [buildConfigSyncEnvelope, throw_bind, bind_eq_ok, check_eq_ok] at hbuilt
    obtain ⟨-, -, body, hbody, -, -, -, ⟨⟩, htransport, hseal⟩ := hbuilt
    exact ⟨_, body, bodyTable_configSync, exists_fields_of_configSyncBody hbody, htransport, hseal⟩
  · simp only [throw_bind, bind_eq_ok, check_eq_ok] at hbuilt
    obtain ⟨-, -, body, hbody, -, -, ⟨⟩, htransport, -, -, -, -, -, -, -, hseal⟩ := hbuilt
    exact ⟨_, body, bodyTable_risk, exists_fields_of_body hbody, htransport, hseal⟩

/-- The decoded command has the intent of the payload, and the producer and the sequence it was
built with. -/
theorem identity_of_built
    (hbuilt : buildCommandEnvelope python payload producerId sequence ttlMs createdAtMs =
      .ok envelope) :
    (instruction envelope).intentId = some (payloadIntentId payload) ∧
      (instruction envelope).producerId = some (strip producerId) ∧
      (instruction envelope).sequence = some sequence.toNat ∧ 0 < sequence := by
  obtain ⟨table, body, htable, hread, htransport, hseal⟩ := exists_body_of_built hbuilt
  simp only [sealBody, throw_bind, bind_eq_ok, check_eq_ok, pure_eq_ok] at hseal
  obtain ⟨-, hash, -, rfl⟩ := hseal
  have hadded : ∀ name ∈ transportFields ++ ["command_hash"], name ∉ names body := by
    rw [names_readFields hread]
    exact htable.added
  obtain ⟨value, hvalue, hlookup⟩ := lookup_readFields hread htable.intent
  have hintent : body.lookup "intent_id" = some (.text (payloadIntentId payload)) := by
    rw [hlookup, strippedField_eq_ok hvalue]
    rfl
  have hproducer : "producer_id" ∉ names body := hadded _ (by simp [transportFields])
  have hsequence : "sequence" ∉ names body := hadded _ (by simp [transportFields])
  simp only [checkTransport, throw_bind, check_eq_ok] at htransport
  refine ⟨?_, ?_, ?_, by omega⟩
  · simp only [instruction, List.append_assoc, field_append_left hintent, optionalText]
  · simp only [instruction, List.append_assoc, field_append_right hproducer]
    rfl
  · simp only [instruction, List.append_assoc, field_append_right hsequence]
    rfl

end Bongus.Outbox
