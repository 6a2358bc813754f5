import Bongus.Lib.Runs
import Bongus.Engine.OrderManager
import Bongus.Ipc.Protocol

/-!
# Configuration commands in the engine

`OrderManager::handle_config_sync_instruction`: a configuration is received by the journal like an
order command, becomes the active one, and may carry an update of the storage latch. Where the
journal cannot take the command, an emergency still sets the latch in memory
(`activateVolatileStorageBarrierWithoutJournal`). `handle_lawful` is what a command may do to the
latch, and `storage_latch_lawful` what any sequence of commands may, together with what a start finds
of its checkpoint.
-/

set_option autoImplicit false
set_option relaxedAutoImplicit false

namespace Bongus.Engine

open Ipc Lib.AtomicReplace Lib.Fallible Lib.Float64 Lib.LineLog Lib.Runs

/-- The rational that digits and the place of their decimal point denote. -/
def decimalValue (digits : List Char) (position : ℤ) : ℚ :=
  ((digits.foldl (fun value digit ↦ 10 * value + (digit.toNat - '0'.toNat)) 0 : ℕ) : ℚ) *
    10 ^ (position - digits.length)

/-- The gross limit of a snapshot as a double: it has to be positive after rounding. -/
def syncedMaxGross (text : String) : Option ℚ :=
  (normalizedPositiveDecimal text).bind fun (digits, position) ↦
    let value := F64.nearest (decimalValue digits position)
    if 0 < value then some value else none

example : syncedMaxGross "9000" = some 9000 := by decide +kernel

namespace OrderManager

variable (crates : Crates) (manager : OrderManager) (around : Surroundings)
  (instruction : AlphaInstruction)

/-- The manager after an update of the latch. -/
def withStorage (result : StorageControl.Result) : OrderManager :=
  { manager with
    storage := result.storage
    state := if result.reconciling then .reconciling else manager.state }

/-- A valid emergency sets the latch in memory although the journal cannot take its command: whether
it did, and the manager. -/
def activateVolatileStorageBarrierWithoutJournal (reason : String) : Bool × OrderManager :=
  match instruction.validateConfigSyncSnapshot crates with
  | .error _ => (false, manager)
  | .ok snapshot =>
    match snapshot.storageControl with
    | none => (false, manager)
    | some update =>
      if ¬ snapshot.pauseNewEntries ∨ ¬ update.emergencyLatched then (false, manager)
      else if update.generation < manager.storage.generation ∨
          (update.generation = manager.storage.generation ∧
            ¬ manager.storage.emergencyLatched) then (false, manager)
      else
        let result := manager.storage.apply crates (some update) around.install
        if result.outcome.isOk = false ∧ ¬ result.storage.emergencyLatched then
          (false, manager.withStorage result)
        else
          (true, { manager.withStorage result with
            storage :=
              { generation := max result.storage.generation update.generation
                emergencyLatched := true
                volatileLatched := true
                error := some ("storage emergency crossed FIFO without durable intent journal: " ++
                  reason) }
            state := .reconciling }.emit (.config (.volatileLatched instruction snapshot reason
              around.nowMs false "VALIDATED")))

/-- The refusal of a configuration command. -/
def rejectConfig (activeHash : Option String) (reason : String) (replay : Bool) : OrderManager :=
  manager.emit (.config (.rejected instruction activeHash reason around.nowMs replay))

/-- Without a journal a command is refused, unless it is an emergency. -/
def withoutJournal (activeHash : Option String) (volatileReason reason : String)
    (replay : Bool) : OrderManager :=
  match manager.activateVolatileStorageBarrierWithoutJournal crates around instruction
      volatileReason with
  | (true, next) => next
  | (false, next) => next.rejectConfig around instruction activeHash reason replay

/-- Receiving a configuration command: the manager, and whether it goes on with a replay, or with a
new command, or not at all. -/
def receiveConfigSync (activeHash : Option String) : Option Bool × OrderManager :=
  match manager.intentJournal with
  | none =>
    (none, manager.withoutJournal crates around instruction activeHash
      "intent_journal_unavailable" "intent_journal_unavailable" false)
  | some journal =>
    let outcome := journal.receive crates instruction around.nowMs around.append
    let received := { manager with intentJournal := some outcome.2 }
    match outcome.1 with
    | .ok (.new receipt) => (some false, received.emit (.intent receipt false))
    | .ok (.replay receipt) =>
      if receipt.ackStatus = "REJECTED" then
        (none, (received.emit (.intent receipt true)).rejectConfig around instruction activeHash
          receipt.reason true)
      else (some true, received.emit (.intent receipt true))
    | .ok .conflict =>
      (none, received.rejectConfig around instruction activeHash "duplicate_intent_conflict" false)
    | .ok .nonMonotonicSequence =>
      (none, received.rejectConfig around instruction activeHash "non_monotonic_sequence" false)
    | .error err =>
      if capacityExhausted err then
        let reason := "intent_journal_survival_reserve_exhausted"
        (none, { manager with state := .reconciling }.withoutJournal crates around instruction
          activeHash reason reason false)
      else
        let reason := "intent_journal_unavailable"
        (none, (manager.closeJournal err).withoutJournal crates around instruction activeHash
          reason reason false)

/-- Rejecting a command that has a receipt. -/
def rejectReceived (activeHash : Option String) (reason : String) (replay : Bool) : OrderManager :=
  let moved := manager.transitionIntentAck around (orEmpty instruction.intentId) "REJECTED" reason
  moved.2.rejectConfig around instruction activeHash reason replay

/-- The reason of the final acknowledgement. -/
def terminalReason : StorageControlApplyOutcome → String
  | .applied => "config_applied"
  | .volatileLatched => "storage_control_volatile_latched"

/-- The final acknowledgement of a configuration that was applied to `previous`. Where it is not
durable, an emergency stays in force, and anything else is taken back with the entries closed. -/
def finishConfigSync (previous : OrderManager) (snapshot : ValidatedConfigSnapshot)
    (outcome : StorageControlApplyOutcome) (activeHash : Option String) (replay : Bool) :
    OrderManager :=
  match manager.transitionIntentAck around (orEmpty instruction.intentId) "TERMINAL"
      (terminalReason outcome) with
  | (true, next) =>
    next.emit (.config (match outcome with
      | .applied => .applied instruction snapshot around.laterMs replay
      | .volatileLatched => .volatileLatched instruction snapshot
          "storage_control_checkpoint_not_durable" around.laterMs replay "TERMINAL"))
  | (false, next) =>
    if snapshot.storageControl.any (·.emergencyLatched) then
      { next with
        storage := { next.storage with
          error := some "storage-control latch lacks durable terminal config ACK"
          emergencyLatched := true
          volatileLatched := true }
        state := .reconciling }.emit (.config (.volatileLatched instruction snapshot
          "storage_control_terminal_ack_not_durable" around.laterMs replay "VALIDATED"))
    else
      { next with
        configConsensus := previous.configConsensus
        maxGrossExposureUsd := previous.maxGrossExposureUsd
        storage :=
          if snapshot.storageControl.isSome then
            { next.storage with
              error := some "storage-control applied without durable terminal config ACK"
              emergencyLatched := true }
          else next.storage }.rejectConfig around instruction activeHash
            "intent_journal_unavailable" replay

/-- Applying a configuration that the journal holds as validated. -/
def applyConfigSync (activeHash : Option String) (replay : Bool) : OrderManager :=
  match manager.configConsensus.apply crates instruction with
  | (.error err, _) => manager.rejectReceived around instruction activeHash err.code replay
  | (.ok snapshot, consensus) =>
    match syncedMaxGross snapshot.maxGrossExposureUsd with
    | none => manager.rejectReceived around instruction activeHash "invalid_risk_limit" replay
    | some synced =>
      let result := manager.storage.apply crates snapshot.storageControl around.install
      match result.outcome with
      | .error reason =>
        (manager.withStorage result).rejectReceived around instruction activeHash reason replay
      | .ok outcome =>
        { manager.withStorage result with
          configConsensus := consensus
          maxGrossExposureUsd := min manager.compiledMaxGrossExposureUsd synced }.finishConfigSync
            around instruction manager snapshot outcome activeHash replay

/-- A received configuration command is validated in the journal before it is applied. -/
def validateConfigSync (activeHash : Option String) (replay : Bool) : OrderManager :=
  match manager.transitionIntentAck around (orEmpty instruction.intentId) "VALIDATED" "" with
  | (true, next) => next.applyConfigSync crates around instruction activeHash replay
  | (false, next) =>
    next.withoutJournal crates around instruction activeHash
      "intent_journal_validation_not_durable" "intent_journal_unavailable" replay

def handleConfigSyncInstruction : OrderManager :=
  let activeHash := manager.configConsensus.appliedHash
  match instruction.protocolError crates around.nowMs with
  | some reason => manager.rejectConfig around instruction activeHash reason false
  | none =>
    match manager.receiveConfigSync crates around instruction activeHash with
    | (none, next) => next
    | (some replay, next) => next.validateConfigSync crates around instruction activeHash replay

/-! ### What a command may do to the latch -/

/-- The update of the latch that a command carries. -/
def carriedUpdate : Option StorageControlUpdate :=
  (instruction.validateConfigSyncSnapshot crates).toOption.bind
    ValidatedConfigSnapshot.storageControl

variable {crates manager around instruction}

/-- The latch of one manager follows lawfully from that of another by the command. -/
abbrev LawfulStep (crates : Crates) (around : Surroundings) (instruction : AlphaInstruction)
    (before after : OrderManager) : Prop :=
  StorageControl.Lawful crates before.storage after.storage (carriedUpdate crates instruction)
    around.install

theorem lawful_of_storage_eq {next : OrderManager} (hstorage : next.storage = manager.storage) :
    LawfulStep crates around instruction manager next := by
  unfold LawfulStep
  rw [hstorage]
  exact StorageControl.Lawful.refl _ _

theorem carriedUpdate_of_valid {snapshot : ValidatedConfigSnapshot}
    (hvalid : instruction.validateConfigSyncSnapshot crates = .ok snapshot) :
    carriedUpdate crates instruction = snapshot.storageControl := by
  rw [carriedUpdate, hvalid]
  rfl

theorem activate_lawful (reason : String) :
    LawfulStep crates around instruction manager
      (manager.activateVolatileStorageBarrierWithoutJournal crates around instruction reason).2 := by
  unfold activateVolatileStorageBarrierWithoutJournal
  split
  · exact lawful_of_storage_eq rfl
  · next snapshot hvalid =>
    split
    · exact lawful_of_storage_eq rfl
    · next update hupdate =>
      have hcarried := (carriedUpdate_of_valid hvalid).trans hupdate
      have happly : StorageControl.Lawful crates manager.storage
          (manager.storage.apply crates (some update) around.install).storage (some update)
          around.install := StorageControl.apply_spec _ _
      dsimp only
      split_ifs
      · exact lawful_of_storage_eq rfl
      · exact lawful_of_storage_eq rfl
      · unfold LawfulStep
        rw [hcarried]
        exact happly
      · unfold LawfulStep
        rw [hcarried]
        exact happly.latch (le_max_left _ _) rfl

theorem withoutJournal_lawful {base : OrderManager} (hbase : base.storage = manager.storage)
    (activeHash : Option String) (volatileReason reason : String) (replay : Bool) :
    LawfulStep crates around instruction manager (base.withoutJournal crates around instruction
      activeHash volatileReason reason replay) := by
  have hactivate : LawfulStep crates around instruction manager
      (base.activateVolatileStorageBarrierWithoutJournal crates around instruction
        volatileReason).2 := by
    unfold LawfulStep
    rw [← hbase]
    exact activate_lawful volatileReason
  unfold withoutJournal
  split
  · next next hnext => rwa [hnext] at hactivate
  · next next hnext => rwa [hnext] at hactivate

/-- Receiving a command is lawful, and leaves the latch and the configuration alone when it goes
on. -/
theorem receiveConfigSync_spec {activeHash : Option String} {goesOn : Option Bool}
    {next : OrderManager}
    (hreceived : manager.receiveConfigSync crates around instruction activeHash = (goesOn, next)) :
    LawfulStep crates around instruction manager next ∧
      (goesOn.isSome → next.storage = manager.storage ∧
        next.configConsensus = manager.configConsensus) := by
  unfold receiveConfigSync at hreceived
  split at hreceived
  · cases hreceived
    exact ⟨withoutJournal_lawful rfl _ _ _ _, nofun⟩
  · dsimp only at hreceived
    split at hreceived
    · cases hreceived
      exact ⟨lawful_of_storage_eq rfl, fun _ ↦ ⟨rfl, rfl⟩⟩
    · split_ifs at hreceived
      · cases hreceived
        exact ⟨lawful_of_storage_eq rfl, nofun⟩
      · cases hreceived
        exact ⟨lawful_of_storage_eq rfl, fun _ ↦ ⟨rfl, rfl⟩⟩
    · cases hreceived
      exact ⟨lawful_of_storage_eq rfl, nofun⟩
    · cases hreceived
      exact ⟨lawful_of_storage_eq rfl, nofun⟩
    · split_ifs at hreceived
      · cases hreceived
        exact ⟨withoutJournal_lawful (by rfl) _ _ _ _, nofun⟩
      · cases hreceived
        exact ⟨withoutJournal_lawful (by rfl) _ _ _ _, nofun⟩

theorem rejectReceived_storage (activeHash : Option String) (reason : String) (replay : Bool) :
    (manager.rejectReceived around instruction activeHash reason replay).storage =
      manager.storage :=
  (transitionIntentAck_frame (Prod.mk.eta).symm).2.1

/-- The final acknowledgement leaves the latch, or sets it. -/
theorem finishConfigSync_storage (previous : OrderManager) (snapshot : ValidatedConfigSnapshot)
    (outcome : StorageControlApplyOutcome) (activeHash : Option String) (replay : Bool) :
    let next := manager.finishConfigSync around instruction previous snapshot outcome activeHash
      replay
    next.storage = manager.storage ∨
      (next.storage.generation = manager.storage.generation ∧
        next.storage.emergencyLatched = true) := by
  intro next
  simp only [next, finishConfigSync]
  split
  · next moved hmoved =>
    exact Or.inl (transitionIntentAck_frame hmoved).2.1
  · next moved hmoved =>
    have hframe := (transitionIntentAck_frame hmoved).2.1
    have hgeneration := congrArg StorageControl.generation hframe
    split_ifs with hemergency hcontrol
    · exact Or.inr ⟨hgeneration, rfl⟩
    · exact Or.inr ⟨hgeneration, rfl⟩
    · exact Or.inl hframe

/-- Applying a configuration is lawful. -/
theorem applyConfigSync_lawful (activeHash : Option String) (replay : Bool) :
    LawfulStep crates around instruction manager
      (manager.applyConfigSync crates around instruction activeHash replay) := by
  unfold applyConfigSync ConfigConsensus.apply
  split
  · exact lawful_of_storage_eq (rejectReceived_storage _ _ _)
  · next snapshot consensus happlied =>
    split at happlied
    · cases happlied
    · next found hvalid =>
      cases happlied
      have hresult : LawfulStep crates around instruction manager (manager.withStorage
          (manager.storage.apply crates snapshot.storageControl around.install)) := by
        unfold LawfulStep
        rw [carriedUpdate_of_valid hvalid]
        exact StorageControl.apply_spec _ _
      split
      · exact lawful_of_storage_eq (rejectReceived_storage _ _ _)
      · dsimp only
        split
        · unfold LawfulStep
          rw [rejectReceived_storage]
          exact hresult
        · unfold LawfulStep
          rcases finishConfigSync_storage manager snapshot _ activeHash replay with
            hsame | ⟨hgeneration, hlatched⟩
          · rw [hsame]
            exact hresult
          · exact hresult.latch hgeneration.ge hlatched

/-- Handling a configuration command is lawful. -/
theorem handle_lawful : LawfulStep crates around instruction manager
    (manager.handleConfigSyncInstruction crates around instruction) := by
  unfold handleConfigSyncInstruction
  dsimp only
  split
  · exact lawful_of_storage_eq rfl
  · split
    · next next hreceived => exact (receiveConfigSync_spec hreceived).1
    · next replay next hreceived =>
      obtain ⟨hstorage, -⟩ := (receiveConfigSync_spec hreceived).2 rfl
      unfold validateConfigSync
      split
      · next moved hmoved =>
        have hsame := (transitionIntentAck_frame hmoved).2.1.trans hstorage
        unfold LawfulStep
        rw [← hsame]
        exact applyConfigSync_lawful _ _
      · next moved hmoved =>
        exact withoutJournal_lawful ((transitionIntentAck_frame hmoved).2.1.trans hstorage) _ _ _ _

/-! ### Sequences of commands -/

variable (crates)

/-- A configuration command with what happens around it. -/
abbrev Delivery := AlphaInstruction × Surroundings

def deliver (manager : OrderManager) (delivery : Delivery) : OrderManager :=
  manager.handleConfigSyncInstruction crates delivery.2 delivery.1

/-- Over every sequence of configuration commands, with any failures of the journal and of the
checkpoint, the generation of the latch does not decrease, and the latch is cleared only by a command
whose update is an acknowledged recovery of a newer generation and whose record is installed. A start
after a crash anywhere inside an install finds the record from before or the new one, and finds one if
one was installed. -/
theorem storage_latch_lawful (decoder : StorageControlRecord.Decoder) :
    (∀ (start : OrderManager) (earlier : List Delivery) (delivery : Delivery),
      let before := run (deliver crates) start earlier
      let after := run (deliver crates) start (earlier ++ [delivery])
      before.storage.generation ≤ after.storage.generation ∧
        (before.storage.emergencyLatched = true → after.storage.emergencyLatched = false →
          ∃ snapshot update, delivery.1.validateConfigSyncSnapshot crates = .ok snapshot ∧
            snapshot.storageControl = some update ∧
            StorageControl.Clears crates before.storage update delivery.2.install)) ∧
    (∀ (installed : Bool) (files stopped : Files Bytes) (record : StorageControlRecord),
      StorageControlRecord.Serving crates installed files → record.validate crates = .ok () →
      Interrupted files record.bytes stopped →
        (StorageControlRecord.load crates decoder stopped =
            StorageControlRecord.load crates decoder files ∨
          StorageControlRecord.load crates decoder stopped = .ok (some record)) ∧
        (installed = true → StorageControlRecord.load crates decoder stopped ≠ .ok none)) := by
  refine ⟨fun start earlier delivery ↦ ?_, fun installed files stopped record hserving hvalid
    hstopped ↦ StorageControlRecord.load_interrupted hserving hvalid hstopped⟩
  intro before after
  have hstep : after = deliver crates before delivery := run_concat start earlier delivery
  have hlawful : LawfulStep crates delivery.2 delivery.1 before after := hstep ▸ handle_lawful
  refine ⟨hlawful.generation, fun hset hclear ↦ ?_⟩
  obtain ⟨update, hcarried, hclears⟩ := hlawful.cleared hset hclear
  obtain ⟨snapshot, hsnapshot, hupdate⟩ := Option.bind_eq_some_iff.mp hcarried
  exact ⟨snapshot, update, toOption_eq_some.mp hsnapshot, hupdate, hclears⟩

/-- A crash while the record of a recovery replaces that of an emergency. -/
theorem recovery_crash_keeps_record :
    let crates := Crates.ascii (fun _ ↦ "") (fun _ ↦ none) (fun _ ↦ "")
    let emergency := StorageControlRecord.new crates 1 true
    let recovery := StorageControlRecord.new crates 2 false
    StorageControlRecord.load crates StorageControlRecord.exactDecoder
      ⟨none, some recovery.bytes, some emergency.bytes⟩ ≠ .ok none := by
  intro crates emergency recovery
  exact ((storage_latch_lawful crates StorageControlRecord.exactDecoder).2 true
    (Files.replaced emergency.bytes) _ recovery
    (.persisted _ _ (.started {}) emergency (by decide +kernel)) (by decide +kernel)
    (.rotated emergency.bytes rfl)).2 rfl

end OrderManager

end Bongus.Engine
