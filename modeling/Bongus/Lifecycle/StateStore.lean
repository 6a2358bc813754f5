import Bongus.Lib.Dictionary
import Bongus.Lib.Fallible
import Bongus.Lib.Text
import Mathlib.Data.Rat.Defs

/-!
# Lifecycle projections

`bongus/engine/state_store.py`: an entry, a partial exit and an exit of a position are journalled as
lifecycle events, and projected to the positions, the trades and the tombstones of the intents that
caused them. An event is claimed by its key, and a second delivery must have the same content.

The monolithic `StateWriter` keeps all tables in one database. `SplitStateWriter` of
`bongus/engine/split_state_store.py` keeps the journal and the trades in an audit database and the
positions and intents in a state database, and commits the first before the second. Both are given
here over the same tables (`Store`), so that what differs is where they guard the projection and
what a failed call leaves.

Python values, the cells that SQLite makes of them and points of time are types of their own, and
`Platform` says what the code asks of them. A column that is stamped with the clock says so instead
of a time (`Stamp.clock`). A symbol is a text, as `upsert_position` declares it, so that the key of
a position is not NULL. Columns that the calls neither read nor write are left out.
-/

set_option autoImplicit false
set_option relaxedAutoImplicit false

namespace Bongus.Lifecycle

open Lib.Dictionary Lib.Fallible Lib.Text

/-- An exception: its type and its text. -/
abbrev Raised := String × String

/-- A mapping with texts as its keys. -/
abbrev Mapping (Value : Type) := List (String × Value)

/-- A payload of the journal: named mappings. -/
abbrev Payload (Value : Type) := List (String × Mapping Value)

/-- What `Decimal` reads. -/
inductive DecimalValue where
  | nan
  | infinite (negative : Bool)
  | finite (value : ℚ)
deriving DecidableEq, Repr

/-- `value <= 0`, none where the comparison raises. -/
def DecimalValue.nonPositive : DecimalValue → Option Bool
  | nan => none
  | infinite negative => some negative
  | finite value => some (value ≤ 0)

/-- A column that is written with a value or with the clock. -/
inductive Stamp (α : Type) where
  | written (value : α)
  | clock
deriving DecidableEq, Repr

/-- What is taken from Python, its libraries and SQLite. -/
structure Platform (Value Cell Time : Type) where
  none : Value
  text : String → Value
  real : ℚ → Value
  isNone : Value → Bool
  truthy : Value → Bool
  str : Value → String
  /-- `int(value)` -/
  int : Value → Except Raised ℤ
  upper : String → String
  lower : String → String
  /-- `Decimal(text)`, none where it raises. -/
  decimal : String → Option DecimalValue
  /-- `json.dumps` with sorted keys -/
  dumps : Payload Value → Except Raised String
  sha256 : String → String
  /-- `datetime.fromisoformat` in UTC, none for a text that is no time. -/
  fromIsoFormat : String → Except Raised (Option Time)
  addDays : Time → ℕ → Except Raised Time
  isoFormat : Time → String
  /-- What a column of a table makes of a value. -/
  cell : String → String → Value → Except Raised Cell
  /-- The cell of a text. -/
  textCell : String → Cell
  /-- The text of the error for arguments that are missing. -/
  missing : List String → String

structure RuntimeContext where
  tradingMode : String := ""
  runtimeMode : String := ""
  sessionId : String := ""
deriving DecidableEq, Repr

structure Trade (Value : Type) where
  symbol : String
  side : String
  entryTime : String
  exitTime : String
  entryPrice : Value
  exitPrice : Value
  qty : Value
  netPnlUsd : Value
  fundingCollected : Value
  executionCostUsd : Value
  basisPnlUsd : Value
  borrowCostUsd : Value
  tradingMode : String := ""
  runtimeMode : String := ""
  sessionId : String := ""
  fundingSource : String := ""
  economicStatus : String := "RECONCILED"
  economicNotes : String := ""
  estimatedNetPnlUsd : Value
  estimatedFundingCollected : Value
  estimatedExecutionCostUsd : Value
  estimatedBasisPnlUsd : Value
  estimatedBorrowCostUsd : Value
  cycleId : String := ""
  entryIntentId : String := ""
  exitIntentId : String := ""

/-- A row of `lifecycle_events`. -/
structure EventRow where
  eventType : String
  symbol : String
  intentId : String
  eventTime : String
  contentHash : String
  payloadJson : String
deriving DecidableEq, Repr

/-- A row of `positions` without its key. -/
structure PositionRow (Cell : Type) where
  columns : List (String × Cell)
  updatedAt : Stamp Cell
deriving DecidableEq, Repr

/-- The columns of `pending_intents` that a tombstone writes. -/
structure PendingIntent where
  lifecycleState : String := "ACTIVE"
  terminalSequenceWatermark : Option ℤ := none
  reconciliationStatus : String := "PENDING"
  retentionDeadline : Option (Stamp String) := none
  tombstonedAt : Option (Stamp String) := none
  tombstoneReason : String := ""
  updatedAt : Stamp String
deriving DecidableEq, Repr

/-- The tables of the audit database. -/
structure Audit (Cell : Type) where
  lifecycleEvents : List (String × EventRow) := []
  tradeHistory : List (List (String × Cell)) := []
deriving DecidableEq

/-- The tables of the state database, with the symbol as the primary key of a position. -/
structure State (Cell : Type) where
  positions : List (Cell × PositionRow Cell) := []
  pendingIntents : List (String × PendingIntent) := []
  context : RuntimeContext := {}
  keyed : (keys positions).Nodup := by decide

structure Store (Cell : Type) where
  audit : Audit Cell
  state : State Cell

/-! ### Calls -/

/-- The part of a call in which the three projections differ. -/
inductive Change (Value : Type) where
  | entry (positionFields : Mapping Value)
  | partialExit (remainingPositionFields : Mapping Value)
  | exit (trade : Trade Value)

structure Call (Value : Type) where
  eventKey : String
  intentId : String
  eventTime : String
  evidence : Mapping Value
  change : Change Value

variable {Value Cell Time : Type} [DecidableEq Cell] (platform : Platform Value Cell Time)

/-- `str(value or default)` for an entry of a mapping. -/
def textOr (value : Option Value) (default : String) : String :=
  match value with
  | some value => if platform.truthy value then platform.str value else default
  | none => default

/-- `asdict(trade)` -/
def asDict (trade : Trade Value) : Mapping Value :=
  [("symbol", platform.text trade.symbol), ("side", platform.text trade.side),
    ("entry_time", platform.text trade.entryTime), ("exit_time", platform.text trade.exitTime),
    ("entry_price", trade.entryPrice), ("exit_price", trade.exitPrice), ("qty", trade.qty),
    ("net_pnl_usd", trade.netPnlUsd), ("funding_collected", trade.fundingCollected),
    ("execution_cost_usd", trade.executionCostUsd), ("basis_pnl_usd", trade.basisPnlUsd),
    ("borrow_cost_usd", trade.borrowCostUsd), ("trading_mode", platform.text trade.tradingMode),
    ("runtime_mode", platform.text trade.runtimeMode),
    ("session_id", platform.text trade.sessionId),
    ("funding_source", platform.text trade.fundingSource),
    ("economic_status", platform.text trade.economicStatus),
    ("economic_notes", platform.text trade.economicNotes),
    ("estimated_net_pnl_usd", trade.estimatedNetPnlUsd),
    ("estimated_funding_collected", trade.estimatedFundingCollected),
    ("estimated_execution_cost_usd", trade.estimatedExecutionCostUsd),
    ("estimated_basis_pnl_usd", trade.estimatedBasisPnlUsd),
    ("estimated_borrow_cost_usd", trade.estimatedBorrowCostUsd),
    ("cycle_id", platform.text trade.cycleId),
    ("entry_intent_id", platform.text trade.entryIntentId),
    ("exit_intent_id", platform.text trade.exitIntentId)]

namespace Call

def eventType (call : Call Value) : String :=
  match call.change with
  | .entry _ => "ENTRY_FILLED"
  | .partialExit _ => "PARTIAL_EXIT_FILLED"
  | .exit _ => "EXIT_FILLED"

def symbol (call : Call Value) : String :=
  match call.change with
  | .entry fields | .partialExit fields =>
    platform.upper (textOr platform (fields.lookup "symbol") "")
  | .exit trade => trade.symbol

/-- The payload that is journalled. -/
def canonical (call : Call Value) : Payload Value :=
  match call.change with
  | .entry fields => [("position", fields), ("evidence", call.evidence)]
  | .partialExit fields => [("remaining_position", fields), ("evidence", call.evidence)]
  | .exit trade => [("trade", asDict platform trade), ("evidence", call.evidence)]

/-- The checks before anything is written, which only a partial exit has. -/
def check (call : Call Value) : Except Raised Unit :=
  match call.change with
  | .partialExit remaining => do
    let qty := match remaining.lookup "qty" with
      | some value => platform.str value
      | none => "0"
    let remainingQty ← orThrow (platform.decimal qty)
      ("ValueError", "partial exit residual quantity is not decimal-safe")
    if call.symbol platform = "" then
      throw ("ValueError", "partial exit requires a positive residual position")
    let nonPositive ← orThrow remainingQty.nonPositive
      ("InvalidOperation", "[<class 'decimal.InvalidOperation'>]")
    if nonPositive then
      throw ("ValueError", "partial exit requires a positive residual position")
  | _ => pure ()

end Call

/-! ### The journal and the trades -/

/-- `_claim_lifecycle_event`: whether the event is new, and the journal. -/
def claimLifecycleEvent (call : Call Value) (events : List (String × EventRow)) :
    Except Raised (Bool × List (String × EventRow)) := do
  if trim separatorBlank call.eventKey = "" then
    throw ("ValueError", "lifecycle event_key is required")
  let payloadJson ← platform.dumps (call.canonical platform)
  let contentHash := platform.sha256 payloadJson
  match events.lookup call.eventKey with
  | none =>
    return (true, events ++ [(call.eventKey, {
      eventType := platform.upper call.eventType
      symbol := platform.upper (call.symbol platform)
      intentId := call.intentId
      eventTime := call.eventTime
      contentHash := contentHash
      payloadJson := payloadJson })])
  | some existing =>
    if existing.contentHash ≠ contentHash then
      throw ("ValueError", "lifecycle event identity collision: " ++ call.eventKey)
    return (false, events)

/-- The first text that is not empty. -/
def firstText (first second : String) : String := if first = "" then second else first

/-- `record_trade`: the row of a trade. -/
def recordTrade (context : RuntimeContext) (trade : Trade Value) :
    Except Raised (List (String × Cell)) :=
  [("symbol", platform.text trade.symbol), ("side", platform.text trade.side),
    ("entry_time", platform.text trade.entryTime), ("exit_time", platform.text trade.exitTime),
    ("entry_price", trade.entryPrice), ("exit_price", trade.exitPrice), ("qty", trade.qty),
    ("net_pnl_usd", trade.netPnlUsd), ("funding_collected", trade.fundingCollected),
    ("execution_cost_usd", trade.executionCostUsd), ("basis_pnl_usd", trade.basisPnlUsd),
    ("borrow_cost_usd", trade.borrowCostUsd),
    ("trading_mode", platform.text
      (platform.lower (firstText trade.tradingMode context.tradingMode))),
    ("runtime_mode", platform.text
      (platform.upper (firstText trade.runtimeMode context.runtimeMode))),
    ("session_id", platform.text (firstText trade.sessionId context.sessionId)),
    ("funding_source", platform.text trade.fundingSource),
    ("economic_status", platform.text
      (platform.upper (firstText trade.economicStatus "INCOMPLETE"))),
    ("economic_notes", platform.text trade.economicNotes),
    ("estimated_net_pnl_usd", trade.estimatedNetPnlUsd),
    ("estimated_funding_collected", trade.estimatedFundingCollected),
    ("estimated_execution_cost_usd", trade.estimatedExecutionCostUsd),
    ("estimated_basis_pnl_usd", trade.estimatedBasisPnlUsd),
    ("estimated_borrow_cost_usd", trade.estimatedBorrowCostUsd),
    ("cycle_id", platform.text trade.cycleId),
    ("entry_intent_id", platform.text trade.entryIntentId),
    ("exit_intent_id", platform.text trade.exitIntentId)].mapM fun column ↦ do
      return (column.1, ← platform.cell "trade_history" column.1 column.2)

/-- What a call writes to the journal and the trades: the event, and for a new exit its trade. -/
def recordEvidence (context : RuntimeContext) (call : Call Value) (audit : Audit Cell) :
    Except Raised (Bool × Audit Cell) := do
  call.check platform
  let (inserted, events) ← claimLifecycleEvent platform call audit.lifecycleEvents
  match call.change, inserted with
  | .exit trade, true =>
    let row ← recordTrade platform context trade
    return (true, { lifecycleEvents := events, tradeHistory := audit.tradeHistory ++ [row] })
  | _, _ => return (inserted, { audit with lifecycleEvents := events })

/-! ### The positions -/

/-- The parameters of `upsert_position` that have no default. -/
def requiredArguments : List String := ["symbol", "side", "spot_entry", "perp_entry", "qty"]

def optionalArguments : List String :=
  ["direction", "hedge_ratio", "ann_funding", "entry_ann_funding", "basis_pct", "net_pnl_usd",
    "exchange_pnl_usd", "recovery_state", "trading_mode", "status", "spot_live", "perp_live",
    "updated_at"]

/-- The binding of the keyword arguments, which also get `commit=False`. -/
def bindArguments (fields : Mapping Value) : Except Raised Unit := do
  if "commit" ∈ keys fields then
    throw ("TypeError", "bongus.engine.state_store.StateWriter.upsert_position() got multiple " ++
      "values for keyword argument 'commit'")
  match (keys fields).find? fun name ↦ name ∉ requiredArguments ++ optionalArguments with
  | some name =>
    throw ("TypeError", "StateWriter.upsert_position() got an unexpected keyword argument '" ++
      name ++ "'")
  | none => pure ()
  let absent := requiredArguments.filter fun name ↦ name ∉ keys fields
  if absent ≠ [] then throw ("TypeError", platform.missing absent)

/-- The row that `upsert_position` writes, with its key. -/
def positionRow (context : RuntimeContext) (fields : Mapping Value) :
    Except Raised (Cell × PositionRow Cell) := do
  bindArguments platform fields
  let argument (name : String) (default : Value) : Value := (fields.lookup name).getD default
  let annFunding := argument "ann_funding" (platform.real 0)
  let entryAnnFunding := argument "entry_ann_funding" platform.none
  let tradingMode := argument "trading_mode" platform.none
  let key ← platform.cell "positions" "symbol" (argument "symbol" platform.none)
  let columns ← [("side", argument "side" platform.none),
    ("direction", argument "direction" (platform.text "")),
    ("spot_entry", argument "spot_entry" platform.none),
    ("perp_entry", argument "perp_entry" platform.none),
    ("spot_live", argument "spot_live" (platform.real 0)),
    ("perp_live", argument "perp_live" (platform.real 0)),
    ("qty", argument "qty" platform.none),
    ("hedge_ratio", argument "hedge_ratio" (platform.real 1)),
    ("ann_funding", annFunding),
    ("entry_ann_funding", if platform.isNone entryAnnFunding then annFunding else entryAnnFunding),
    ("basis_pct", argument "basis_pct" (platform.real 0)),
    ("net_pnl_usd", argument "net_pnl_usd" (platform.real 0)),
    ("exchange_pnl_usd", argument "exchange_pnl_usd" (platform.real 0)),
    ("recovery_state", argument "recovery_state" (platform.text "")),
    ("trading_mode", platform.text (if platform.isNone tradingMode then context.tradingMode
      else platform.lower (textOr platform (some tradingMode) ""))),
    ("status", argument "status" (platform.text "OPEN"))].mapM fun column ↦ do
      return (column.1, ← platform.cell "positions" column.1 column.2)
  let updatedAt ← match fields.lookup "updated_at" with
    | some value => if platform.truthy value then
        Stamp.written <$> platform.cell "positions" "updated_at" value else pure .clock
    | none => pure .clock
  return (key, { columns := columns, updatedAt := updatedAt })

/-- `upsert_position`, given its row. -/
def State.upsertPosition (state : State Cell) (key : Cell) (row : PositionRow Cell) : State Cell :=
  { state with
    positions := assign state.positions key row
    keyed := nodup_assign state.keyed key row }

omit [DecidableEq Cell] in
theorem nodup_keys_filter {entries : List (Cell × PositionRow Cell)} (hkeys : (keys entries).Nodup)
    (keep : Cell × PositionRow Cell → Bool) : (keys (entries.filter keep)).Nodup :=
  hkeys.sublist (List.filter_sublist.map Prod.fst)

/-- `remove_position` -/
def State.removePosition (state : State Cell) (key : Cell) : State Cell :=
  { state with
    positions := state.positions.filter fun entry ↦ entry.1 ≠ key
    keyed := nodup_keys_filter state.keyed _ }

/-! ### The tombstones -/

/-- What `tombstone_pending_intent` writes to an intent. -/
structure Tombstone where
  target : String
  lifecycleState : String
  sequence : Option ℤ
  reconciliationStatus : String
  retentionDeadline : Stamp String
  observedAt : Stamp String
  reason : String
deriving DecidableEq, Repr

/-- `_lifecycle_tombstone_fields` -/
def lifecycleTombstoneFields (evidence : Mapping Value) :
    Except Raised (String × String × Option ℤ × String) := do
  let executionType := platform.upper (textOr platform (evidence.lookup "execution_type") "")
  let exchangeFlat :=
    (evidence.lookup "exchange_flat_awaiting_terminal").any platform.truthy ||
      executionType = "RECONCILED_FLAT"
  let state := firstText
    (platform.upper (textOr platform (evidence.lookup "tombstone_lifecycle_state") ""))
    (if exchangeFlat then "EXCHANGE_FLAT_AWAITING_TERMINAL" else "TERMINAL_RECONCILED")
  let reconciliation := firstText
    (platform.upper (textOr platform (evidence.lookup "reconciliation_status") ""))
    (if exchangeFlat then "EXCHANGE_FLAT" else "TERMINAL_CONFIRMED")
  let sequence ← match evidence.lookup "telemetry_sequence" with
    | none => pure none
    | some value =>
      if platform.isNone value then pure none
      else match platform.int value with
        | .ok sequence => pure (some sequence)
        | .error raised =>
          if raised.1 = "TypeError" ∨ raised.1 = "ValueError" then pure none else throw raised
  let reason := textOr platform (evidence.lookup "tombstone_reason")
    (firstText executionType "lifecycle_projected")
  return (state, reconciliation, sequence, reason)

/-- `_parse_iso` of a text -/
def parseIso (value : String) : Except Raised (Option Time) :=
  if value = "" then pure none else platform.fromIsoFormat (value.replace "Z" "+00:00")

/-- What a tombstone writes, none for a blank intent. -/
def tombstone (intentId : String) (fields : String × String × Option ℤ × String)
    (tombstonedAt : String) : Except Raised (Option Tombstone) := do
  let (lifecycleState, reconciliationStatus, sequence, reason) := fields
  let target := trim separatorBlank intentId
  if target = "" then return none
  let normalizedState :=
    platform.upper (trim separatorBlank (firstText lifecycleState "TERMINAL_RECONCILED"))
  if normalizedState = "ACTIVE" then
    throw ("ValueError", "a tombstone cannot use ACTIVE lifecycle state")
  let normalizedReconciliation :=
    platform.upper (trim separatorBlank (firstText reconciliationStatus "PENDING_TERMINAL"))
  let (observedAt, deadline) ← match ← parseIso platform tombstonedAt with
    | none => pure (Stamp.clock, Stamp.clock)
    | some observed =>
      let deadline ← platform.addDays observed 30
      pure (.written (platform.isoFormat observed), .written (platform.isoFormat deadline))
  match sequence with
  | some sequence =>
    if sequence < 0 then throw ("ValueError", "terminal_sequence must be non-negative")
    if 2 ^ 63 ≤ sequence then
      throw ("OverflowError", "Python int too large to convert to SQLite INTEGER")
  | none => pure ()
  return some {
    target := target
    lifecycleState := normalizedState
    sequence := sequence
    reconciliationStatus := normalizedReconciliation
    retentionDeadline := deadline
    observedAt := observedAt
    reason := reason }

/-- The row of an intent after the update of a tombstone. -/
def PendingIntent.tombstoned (intent : PendingIntent) (tombstone : Tombstone) : PendingIntent :=
  { lifecycleState := tombstone.lifecycleState
    terminalSequenceWatermark :=
      match tombstone.sequence, intent.terminalSequenceWatermark with
      | none, watermark => watermark
      | some sequence, none => some sequence
      | some sequence, some watermark =>
        if watermark < sequence then some sequence else some watermark
    reconciliationStatus := tombstone.reconciliationStatus
    retentionDeadline := some (intent.retentionDeadline.getD tombstone.retentionDeadline)
    tombstonedAt := some (intent.tombstonedAt.getD tombstone.observedAt)
    tombstoneReason := if tombstone.reason = "" then intent.tombstoneReason else tombstone.reason
    updatedAt := tombstone.observedAt }

/-- `tombstone_pending_intent`, given what it writes. -/
def State.tombstonePendingIntent (state : State Cell) (tombstone : Tombstone) : State Cell :=
  { state with
    pendingIntents := state.pendingIntents.map fun entry ↦
      if entry.1 = tombstone.target then (entry.1, entry.2.tombstoned tombstone) else entry }

/-! ### The projection -/

/-- What a call changes in the state database. -/
structure Projection (Cell : Type) where
  /-- The position that is written, or the key of the one that is removed. -/
  position : (Cell × PositionRow Cell) ⊕ Cell
  tombstone : Option Tombstone

/-- The projection of a call. It does not depend on the positions and intents. -/
def projectionOf (context : RuntimeContext) (call : Call Value) :
    Except Raised (Projection Cell) := do
  let position ← match call.change with
    | .entry fields | .partialExit fields => Sum.inl <$> positionRow platform context fields
    | .exit trade => pure (.inr (platform.textCell trade.symbol))
  let tombstone ← if call.intentId = "" then pure none else do
    let fields ← lifecycleTombstoneFields platform call.evidence
    tombstone platform call.intentId fields call.eventTime
  return { position := position, tombstone := tombstone }

def State.apply (state : State Cell) (projection : Projection Cell) : State Cell :=
  let moved := match projection.position with
    | .inl (key, row) => state.upsertPosition key row
    | .inr key => state.removePosition key
  match projection.tombstone with
  | none => moved
  | some tombstone => moved.tombstonePendingIntent tombstone

/-! ### The two writers -/

/-- The projections of `StateWriter`. The event is guarded by its claim, and a call that raises
leaves the store. -/
def StateWriter.project (store : Store Cell) (call : Call Value) :
    Except Raised Bool × Store Cell :=
  match recordEvidence platform store.state.context call store.audit with
  | .error raised => (.error raised, store)
  | .ok (false, _) => (.ok false, store)
  | .ok (true, audit) =>
    match projectionOf platform store.state.context call with
    | .error raised => (.error raised, store)
    | .ok projection => (.ok true, { audit := audit, state := store.state.apply projection })

/-- The first commit of `SplitStateWriter`, to the audit database. -/
def SplitStateWriter.commitAudit (store : Store Cell) (call : Call Value) :
    Except Raised (Bool × Store Cell) := do
  let (inserted, audit) ← recordEvidence platform store.state.context call store.audit
  return (inserted, { store with audit := audit })

/-- The second commit, to the state database. It is made for new and for known events. -/
def SplitStateWriter.commitState (store : Store Cell) (call : Call Value) :
    Except Raised (Store Cell) := do
  let projection ← projectionOf platform store.state.context call
  return { store with state := store.state.apply projection }

/-- The projections of `SplitStateWriter`. -/
def SplitStateWriter.project (store : Store Cell) (call : Call Value) :
    Except Raised Bool × Store Cell :=
  match SplitStateWriter.commitAudit platform store call with
  | .error raised => (.error raised, store)
  | .ok (inserted, evident) =>
    match SplitStateWriter.commitState platform evident call with
    | .error raised => (.error raised, evident)
    | .ok projected => (.ok inserted, projected)

section Writers

variable (eventKey intentId eventTime : String)

def StateWriter.projectEntryLifecycle (store : Store Cell)
    (positionFields evidence : Mapping Value) : Except Raised Bool × Store Cell :=
  StateWriter.project platform store ⟨eventKey, intentId, eventTime, evidence,
    .entry positionFields⟩

def StateWriter.projectPartialExitLifecycle (store : Store Cell)
    (remainingPositionFields evidence : Mapping Value) : Except Raised Bool × Store Cell :=
  StateWriter.project platform store ⟨eventKey, intentId, eventTime, evidence,
    .partialExit remainingPositionFields⟩

def StateWriter.projectExitLifecycle (store : Store Cell) (trade : Trade Value)
    (evidence : Mapping Value) : Except Raised Bool × Store Cell :=
  StateWriter.project platform store ⟨eventKey, intentId, eventTime, evidence, .exit trade⟩

def SplitStateWriter.projectEntryLifecycle (store : Store Cell)
    (positionFields evidence : Mapping Value) : Except Raised Bool × Store Cell :=
  SplitStateWriter.project platform store ⟨eventKey, intentId, eventTime, evidence,
    .entry positionFields⟩

def SplitStateWriter.projectPartialExitLifecycle (store : Store Cell)
    (remainingPositionFields evidence : Mapping Value) : Except Raised Bool × Store Cell :=
  SplitStateWriter.project platform store ⟨eventKey, intentId, eventTime, evidence,
    .partialExit remainingPositionFields⟩

def SplitStateWriter.projectExitLifecycle (store : Store Cell) (trade : Trade Value)
    (evidence : Mapping Value) : Except Raised Bool × Store Cell :=
  SplitStateWriter.project platform store ⟨eventKey, intentId, eventTime, evidence, .exit trade⟩

end Writers

/-- A lifecycle call of `StateWriter`. -/
def StateWriter.deliver (store : Store Cell) (call : Call Value) :
    Except Raised Bool × Store Cell :=
  match call.change with
  | .entry positionFields => StateWriter.projectEntryLifecycle platform call.eventKey
      call.intentId call.eventTime store positionFields call.evidence
  | .partialExit remaining => StateWriter.projectPartialExitLifecycle platform call.eventKey
      call.intentId call.eventTime store remaining call.evidence
  | .exit trade => StateWriter.projectExitLifecycle platform call.eventKey call.intentId
      call.eventTime store trade call.evidence

/-- A lifecycle call of `SplitStateWriter`. -/
def SplitStateWriter.deliver (store : Store Cell) (call : Call Value) :
    Except Raised Bool × Store Cell :=
  match call.change with
  | .entry positionFields => SplitStateWriter.projectEntryLifecycle platform call.eventKey
      call.intentId call.eventTime store positionFields call.evidence
  | .partialExit remaining => SplitStateWriter.projectPartialExitLifecycle platform call.eventKey
      call.intentId call.eventTime store remaining call.evidence
  | .exit trade => SplitStateWriter.projectExitLifecycle platform call.eventKey call.intentId
      call.eventTime store trade call.evidence

theorem StateWriter.deliver_eq (store : Store Cell) (call : Call Value) :
    StateWriter.deliver platform store call = StateWriter.project platform store call := by
  obtain ⟨eventKey, intentId, eventTime, evidence, change⟩ := call
  cases change <;> rfl

theorem SplitStateWriter.deliver_eq (store : Store Cell) (call : Call Value) :
    SplitStateWriter.deliver platform store call =
      SplitStateWriter.project platform store call := by
  obtain ⟨eventKey, intentId, eventTime, evidence, change⟩ := call
  cases change <;> rfl

end Bongus.Lifecycle
