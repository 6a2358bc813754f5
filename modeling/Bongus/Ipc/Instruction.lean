import Bongus.Lib.Float64
import Bongus.Lib.Text

/-!
# Commands to the execution engine

`AlphaInstruction` of `execution_engine/src/ipc.rs`, its canonical text and its fingerprint. Every
field of the command is here. Texts stand for their UTF-8 bytes, so the length prefix of a field is
the byte size of its value. Unsigned integers are naturals, times are integers.
-/

set_option autoImplicit false
set_option relaxedAutoImplicit false

namespace Bongus.Ipc

open Lib.Float64 Lib.Text

def executionProtocolVersion : ℕ := 3

/-- The default budget of five million, by its bits. -/
def defaultMaxUnhedgedNotionalMs : F64 := 0x415312d000000000

def maxCommandTtlMs : ℤ := 300000

def configSyncIntent : String := "CONFIG_SYNC"

structure AlphaInstruction where
  schemaVersion : Option ℕ := none
  producerId : Option String := none
  sequence : Option ℕ := none
  createdAtMs : Option ℤ := none
  deadlineAtMs : Option ℤ := none
  commandHash : Option String := none
  accountId : Option String := none
  environment : Option String := none
  strategyId : Option String := none
  cycleId : Option String := none
  configVersionHash : Option String := none
  configCanonicalJson : Option String := none
  spotLegId : Option String := none
  perpLegId : Option String := none
  symbol : Option String := none
  intent : String
  quantity : F64 := 0
  urgency : F64 := 0
  maxSlippageBps : F64 := 0
  routePolicy : Option String := none
  routeModelVersion : Option String := none
  maxUnhedgedNotionalMs : Option F64 := none
  routeSliceCount : Option ℕ := none
  exposureScale : F64 := 0
  heartbeatId : Option String := none
  intentId : Option String := none
  direction : Option String := none
  skipSpotLeg : Bool := false
  skipPerpLeg : Bool := false
  spotEntryPrice : Option F64 := none
  perpEntryPrice : Option F64 := none
  spotMarkPrice : Option F64 := none
  perpMarkPrice : Option F64 := none
  spotQuantity : Option F64 := none
  perpQuantity : Option F64 := none
  requestedQuantityDecimal : Option String := none
  normalizedCommonEntryQuantityDecimal : Option String := none
  actualSpotInventoryDecimal : Option String := none
  actualFuturesInventoryDecimal : Option String := none
  exitSpotQuantityDecimal : Option String := none
  exitFuturesQuantityDecimal : Option String := none
  spotClientOrderId : Option String := none
  perpClientOrderId : Option String := none
deriving DecidableEq

/-- A JSON document as the parser returns it. A number has its text and, if it is one, its value as
an unsigned 64-bit integer. The fields of an object have distinct names. -/
inductive Json where
  | null
  | bool (value : Bool)
  | number (text : String) (asU64 : Option ℕ)
  | string (value : String)
  | array (items : List Json)
  | object (fields : List (String × Json))

/-- What the command path takes from outside: the hexadecimal SHA-256 of a text, the case mappings,
and the JSON parser with the writer that belongs to it. -/
structure Crates where
  sha256 : String → String
  toUppercase : String → String
  toLowercase : String → String
  parseJson : String → Option Json
  jsonText : Json → String

/-- The case mappings on texts that have only ASCII letters. -/
def Crates.ascii (sha256 : String → String) (parseJson : String → Option Json)
    (jsonText : Json → String) : Crates :=
  ⟨sha256, String.toUpper, String.toLower, parseJson, jsonText⟩

/-- The text without surrounding white space. -/
def trimmed (text : String) : String := trim unicodeBlank text

/-- The text of an optional field, empty if it is absent. -/
def orEmpty (text : Option String) : String := text.getD ""

/-- An optional field is absent or has only white space. -/
def missing (text : Option String) : Bool := isBlank unicodeBlank (orEmpty text)

def eqIgnoreAsciiCase (left right : String) : Bool :=
  left.toList.map Char.toLower = right.toList.map Char.toLower

/-- The command distributes a configuration. -/
def AlphaInstruction.isConfigSync (instruction : AlphaInstruction) : Bool :=
  eqIgnoreAsciiCase (trimmed instruction.intent) configSyncIntent

/-! ### Canonical text -/

def canonicalString (name value : String) : String :=
  name ++ "=s" ++ toString value.utf8ByteSize ++ ":" ++ value ++ "\n"

def canonicalInteger (name : String) (value : ℕ) : String := name ++ "=i" ++ toString value ++ "\n"

def canonicalFloat (name : String) (value : F64) : String := name ++ "=f" ++ value.hexBits ++ "\n"

def canonicalBoolean (name : String) (value : Bool) : String :=
  name ++ (if value then "=b1\n" else "=b0\n")

/-- A field that may be absent. -/
def canonicalOptional {α : Type} (write : String → α → String) (name : String) :
    Option α → String
  | none => name ++ "=n\n"
  | some value => write name value

variable (crates : Crates)

def AlphaInstruction.canonicalConfigSyncCommandText (instruction : AlphaInstruction) : String :=
  String.join [
    "bongus-config-sync-command-v3\n",
    canonicalInteger "schema_version"
      (instruction.schemaVersion.getD executionProtocolVersion),
    canonicalString "account_id" (trimmed (orEmpty instruction.accountId)),
    canonicalString "environment" (trimmed (orEmpty instruction.environment)),
    canonicalString "strategy_id" (trimmed (orEmpty instruction.strategyId)),
    canonicalString "cycle_id" (trimmed (orEmpty instruction.cycleId)),
    canonicalString "config_version_hash" (trimmed (orEmpty instruction.configVersionHash)),
    canonicalString "intent" configSyncIntent,
    canonicalString "intent_id" (trimmed (orEmpty instruction.intentId)),
    canonicalString "config_canonical_json" (orEmpty instruction.configCanonicalJson)]

def AlphaInstruction.canonicalCommandText (instruction : AlphaInstruction) : String :=
  String.join [
    "bongus-execution-command-v3\n",
    canonicalInteger "schema_version"
      (instruction.schemaVersion.getD executionProtocolVersion),
    canonicalString "account_id" (trimmed (orEmpty instruction.accountId)),
    canonicalString "environment" (trimmed (orEmpty instruction.environment)),
    canonicalString "strategy_id" (trimmed (orEmpty instruction.strategyId)),
    canonicalString "cycle_id" (trimmed (orEmpty instruction.cycleId)),
    canonicalString "config_version_hash" (trimmed (orEmpty instruction.configVersionHash)),
    canonicalString "symbol" (crates.toUppercase (trimmed (orEmpty instruction.symbol))),
    canonicalString "intent" (crates.toUppercase (trimmed instruction.intent)),
    canonicalFloat "quantity" instruction.quantity,
    canonicalFloat "urgency" instruction.urgency,
    canonicalFloat "max_slippage_bps" instruction.maxSlippageBps,
    canonicalString "route_policy"
      (crates.toLowercase (trimmed (instruction.routePolicy.getD "legacy_dual_maker"))),
    canonicalString "route_model_version"
      (trimmed (instruction.routeModelVersion.getD "legacy-v1")),
    canonicalFloat "max_unhedged_notional_ms"
      (instruction.maxUnhedgedNotionalMs.getD defaultMaxUnhedgedNotionalMs),
    canonicalInteger "route_slice_count" (instruction.routeSliceCount.getD 1),
    canonicalFloat "exposure_scale" instruction.exposureScale,
    canonicalString "intent_id" (trimmed (orEmpty instruction.intentId)),
    canonicalOptional canonicalString "direction"
      (instruction.direction.map fun direction ↦ crates.toLowercase (trimmed direction)),
    canonicalBoolean "skip_spot_leg" instruction.skipSpotLeg,
    canonicalBoolean "skip_perp_leg" instruction.skipPerpLeg,
    canonicalOptional canonicalFloat "spot_quantity" instruction.spotQuantity,
    canonicalOptional canonicalFloat "perp_quantity" instruction.perpQuantity,
    canonicalString "requested_quantity_decimal" (orEmpty instruction.requestedQuantityDecimal),
    canonicalOptional canonicalString "actual_spot_inventory_decimal"
      instruction.actualSpotInventoryDecimal,
    canonicalOptional canonicalString "actual_futures_inventory_decimal"
      instruction.actualFuturesInventoryDecimal,
    canonicalOptional canonicalString "exit_spot_quantity_decimal"
      instruction.exitSpotQuantityDecimal,
    canonicalOptional canonicalString "exit_futures_quantity_decimal"
      instruction.exitFuturesQuantityDecimal,
    canonicalString "spot_client_order_id" (trimmed (orEmpty instruction.spotClientOrderId)),
    canonicalString "perp_client_order_id" (trimmed (orEmpty instruction.perpClientOrderId)),
    canonicalString "spot_leg_id" (trimmed (orEmpty instruction.spotLegId)),
    canonicalString "perp_leg_id" (trimmed (orEmpty instruction.perpLegId))]

def AlphaInstruction.semanticFingerprint (instruction : AlphaInstruction) : String :=
  crates.sha256 <|
    if instruction.isConfigSync then instruction.canonicalConfigSyncCommandText
    else instruction.canonicalCommandText crates

/-! ### Client order ids -/

inductive OrderLeg where
  | spot
  | perp
deriving DecidableEq, Repr

def OrderLeg.letter : OrderLeg → String
  | .spot => "s"
  | .perp => "p"

/-- The id under which the exchange knows the order of one leg. -/
def deterministicClientOrderId (intentId : String) (leg : OrderLeg) : String :=
  "bngs_" ++ leg.letter ++ "_" ++
    ((crates.sha256 (intentId ++ ":" ++ leg.letter)).take 24).toString

end Bongus.Ipc
