import Bongus.Ipc.IntentJournal
import Bongus.Engine.StorageControl

/-!
# The order manager's side of the command channel

The part of `OrderManager` of `execution_engine/src/order_manager.rs` that receives commands: the
journal, the configuration, the storage latch, and the acknowledgements it sends. What happens
outside of it while a command is handled is `Surroundings`: the clock, and whether the appends to
the journal and the install of a storage checkpoint succeed.
-/

set_option autoImplicit false
set_option relaxedAutoImplicit false

namespace Bongus.Engine

open Ipc

inductive SystemState where
  | disconnected
  | reconciling
  | trading
deriving DecidableEq, Repr

/-- The acknowledgement of a configuration. -/
structure ConfigAck where
  intentId : String
  producerId : String
  sequence : ℕ
  accountId : String
  environment : String
  strategyId : String
  cycleId : String
  configVersionHash : String
  commandHash : String
  ackStatus : String
  reason : String
  eventTimeMs : ℤ
  replay : Bool
  declaredConfigHash : String
  appliedConfigHash : String
  configStatus : String
deriving DecidableEq, Repr

namespace ConfigAck

def build (instruction : AlphaInstruction) (ackStatus reason : String) (eventTimeMs : ℤ)
    (replay : Bool) (appliedConfigHash configStatus : String) : ConfigAck where
  intentId := orEmpty instruction.intentId
  producerId := orEmpty instruction.producerId
  sequence := instruction.sequence.getD 0
  accountId := orEmpty instruction.accountId
  environment := orEmpty instruction.environment
  strategyId := orEmpty instruction.strategyId
  cycleId := orEmpty instruction.cycleId
  configVersionHash := orEmpty instruction.configVersionHash
  commandHash := orEmpty instruction.commandHash
  ackStatus := ackStatus
  reason := reason
  eventTimeMs := eventTimeMs
  replay := replay
  declaredConfigHash := orEmpty instruction.configVersionHash
  appliedConfigHash := appliedConfigHash
  configStatus := configStatus

def applied (instruction : AlphaInstruction) (snapshot : ValidatedConfigSnapshot)
    (eventTimeMs : ℤ) (replay : Bool) : ConfigAck :=
  build instruction "TERMINAL" "" eventTimeMs replay snapshot.configHash "APPLIED"

def rejected (instruction : AlphaInstruction) (activeHash : Option String) (reason : String)
    (eventTimeMs : ℤ) (replay : Bool) : ConfigAck :=
  build instruction "REJECTED" reason eventTimeMs replay (orEmpty activeHash) "REJECTED"

/-- The latch is set in memory, and the checkpoint or the receipt is not durable. -/
def volatileLatched (instruction : AlphaInstruction) (snapshot : ValidatedConfigSnapshot)
    (reason : String) (eventTimeMs : ℤ) (replay : Bool) (ackStatus : String) : ConfigAck :=
  build instruction ackStatus reason eventTimeMs replay snapshot.configHash "VOLATILE_LATCHED"

end ConfigAck

/-- What is sent back: the receipt of an intent, an acknowledgement of a command without a receipt,
or the acknowledgement of a configuration. -/
inductive Ack where
  | intent (receipt : IntentReceipt) (replay : Bool)
  | raw (instruction : AlphaInstruction) (ackStatus reason : String)
  | config (ack : ConfigAck)
deriving DecidableEq

namespace Ack

def intentId : Ack → String
  | .intent receipt _ => receipt.intentId
  | .raw instruction _ _ => orEmpty instruction.intentId
  | .config ack => ack.intentId

def status : Ack → String
  | .intent receipt _ => receipt.ackStatus
  | .raw _ ackStatus _ => ackStatus
  | .config ack => ack.ackStatus

end Ack

/-- The journal is open or was given up. What it held then is on disk, and `abandoned` says so. -/
structure OrderManager where
  intentJournal : Option JournalState
  abandoned : Option JournalState := none
  intentJournalError : Option String := none
  configConsensus : ConfigConsensus := {}
  compiledMaxGrossExposureUsd : ℚ := Ipc.compiledMaxGrossExposureUsd
  maxGrossExposureUsd : ℚ := Ipc.compiledMaxGrossExposureUsd
  storage : StorageControl := {}
  state : SystemState := .trading
  sent : List Ack := []

/-- What happens around the handling of a command: the clock at its start and when acknowledgements
move, the appends, and the install of a storage checkpoint. -/
structure Surroundings where
  nowMs : ℤ
  laterMs : ℤ
  append : JournalState.Append
  install : Except String Unit

namespace OrderManager

variable (manager : OrderManager)

def emit (ack : Ack) : OrderManager := { manager with sent := manager.sent ++ [ack] }

/-- A journal that failed is given up. -/
def closeJournal (err : String) : OrderManager :=
  { manager with
    intentJournalError := some err
    intentJournal := none
    abandoned := manager.intentJournal <|> manager.abandoned }

/-- The receipts that are durable, whether the journal is still open or not. -/
def heldJournal : JournalState := (manager.intentJournal <|> manager.abandoned).getD .empty

/-- Moving the acknowledgement of an intent: whether the new state is durable, and the manager. -/
def transitionIntentAck (around : Surroundings) (intentId status reason : String) :
    Bool × OrderManager :=
  match manager.intentJournal with
  | none => (false, manager)
  | some journal =>
    let outcome := journal.transition intentId status reason around.laterMs around.append
    match outcome.1 with
    | .ok (some receipt) =>
      (true, { manager with intentJournal := some outcome.2 }.emit (.intent receipt false))
    | .ok none => (false, manager)
    | .error err => (false, manager.closeJournal err)

def containsText (part text : String) : Bool := decide (part.toList <:+: text.toList)

/-- The journal ran out of its byte budget, and is still usable. -/
def capacityExhausted (err : String) : Bool := containsText "byte budget exceeded" err

/-! ### What the channel leaves alone -/

variable {manager}

/-- Moving an acknowledgement touches the journal and what is sent, and nothing else. -/
theorem transitionIntentAck_frame {around : Surroundings} {intentId status reason : String}
    {durable : Bool} {next : OrderManager}
    (hmoved : manager.transitionIntentAck around intentId status reason = (durable, next)) :
    next.configConsensus = manager.configConsensus ∧ next.storage = manager.storage ∧
      next.maxGrossExposureUsd = manager.maxGrossExposureUsd := by
  unfold transitionIntentAck at hmoved
  split at hmoved
  · cases hmoved
    exact ⟨rfl, rfl, rfl⟩
  · dsimp only at hmoved
    split at hmoved <;> cases hmoved <;> exact ⟨rfl, rfl, rfl⟩

end OrderManager

end Bongus.Engine
