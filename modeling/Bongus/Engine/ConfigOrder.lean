import Bongus.Engine.ConfigSync

/-!
# Which configuration is active

A configuration command that is delivered again is applied again, since a restarted process has no
configuration. In one process this brings an older configuration back
(`redelivered_config_reinstated`). Where only the newest accepted command of a producer is delivered
again, the active configuration is always the newest one (`active_config_newest`).
-/

set_option autoImplicit false
set_option relaxedAutoImplicit false

namespace Bongus.Engine

open Ipc Lib.HashMap Lib.Runs

/-- The acknowledgement of a configuration as final. -/
def Ack.finalConfig : Ack → Bool
  | .config ack => ack.ackStatus = "TERMINAL"
  | _ => false

namespace OrderManager

/-- A configuration was acknowledged as final. -/
def acknowledged (manager : OrderManager) : Bool := manager.sent.any Ack.finalConfig

theorem acknowledged_emit (manager : OrderManager) (ack : Ack) :
    (manager.emit ack).acknowledged = (manager.acknowledged || ack.finalConfig) := by
  simp [acknowledged, emit]

/-- The manager has a consistent journal with these sequence owners, and it knows the intent. -/
def Open (owners : Lib.HashMap (String × ℕ) String) (intentId : String)
    (manager : OrderManager) : Prop :=
  ∃ journal, manager.intentJournal = some journal ∧ journal.Consistent ∧
    journal.sequenceOwners = owners ∧ (journal.receipts.lookup intentId).isSome = true

variable {crates : Crates} {manager next : OrderManager} {around : Surroundings}
  {instruction : AlphaInstruction} {owners : Lib.HashMap (String × ℕ) String} {intentId : String}

/-- Where appends succeed, an acknowledgement moves durably and the journal stays open. -/
theorem Open.transition (hopen : Open owners intentId manager)
    (happend : ∀ receipt writeClass, around.append receipt writeClass = .ok ())
    {status reason : String} (hrank : (ackRank status).isSome = true) {durable : Bool}
    (hmoved : manager.transitionIntentAck around intentId status reason = (durable, next)) :
    durable = true ∧ Open owners intentId next ∧ next.acknowledged = manager.acknowledged := by
  obtain ⟨journal, hjournal, hconsistent, howners, hknown⟩ := hopen
  obtain ⟨receipt, hresult, howners', hknown'⟩ :=
    JournalState.transition_of_append reason around.laterMs happend hknown hrank
  unfold transitionIntentAck at hmoved
  rw [hjournal] at hmoved
  dsimp only at hmoved
  rw [hresult] at hmoved
  cases hmoved
  refine ⟨rfl, ⟨_, rfl, hconsistent.transition _ _ _ _ _, howners'.trans howners, hknown'⟩, ?_⟩
  rw [acknowledged_emit]
  exact Bool.or_false _

theorem rejectConfig_quiet (activeHash : Option String) (reason : String) (replay : Bool) :
    (manager.rejectConfig around instruction activeHash reason replay).acknowledged =
      manager.acknowledged := by
  rw [rejectConfig, acknowledged_emit]
  exact Bool.or_false _

/-- A rejection moves the receipt and leaves the configuration. -/
theorem Open.rejectReceived (hopen : Open owners (orEmpty instruction.intentId) manager)
    (happend : ∀ receipt writeClass, around.append receipt writeClass = .ok ())
    (activeHash : Option String) (reason : String) (replay : Bool) :
    let after := manager.rejectReceived around instruction activeHash reason replay
    Open owners (orEmpty instruction.intentId) after ∧
      after.acknowledged = manager.acknowledged ∧
      after.configConsensus = manager.configConsensus := by
  rcases hmoved : manager.transitionIntentAck around (orEmpty instruction.intentId) "REJECTED"
    reason with ⟨durable, moved⟩
  obtain ⟨-, hnext, hquiet⟩ := hopen.transition happend (by decide) hmoved
  dsimp only [OrderManager.rejectReceived]
  rw [hmoved]
  exact ⟨hnext, (rejectConfig_quiet _ _ _).trans hquiet, (transitionIntentAck_frame hmoved).1⟩

/-- The final acknowledgement is sent, and the configuration stays. -/
theorem Open.finishConfigSync (hopen : Open owners (orEmpty instruction.intentId) manager)
    (happend : ∀ receipt writeClass, around.append receipt writeClass = .ok ())
    (previous : OrderManager) (snapshot : ValidatedConfigSnapshot)
    (outcome : StorageControlApplyOutcome) (activeHash : Option String) (replay : Bool) :
    let after := manager.finishConfigSync around instruction previous snapshot outcome activeHash
      replay
    Open owners (orEmpty instruction.intentId) after ∧ after.acknowledged = true ∧
      after.configConsensus = manager.configConsensus := by
  rcases hmoved : manager.transitionIntentAck around (orEmpty instruction.intentId) "TERMINAL"
    (terminalReason outcome) with ⟨durable, moved⟩
  obtain ⟨rfl, hnext, -⟩ := hopen.transition happend (by decide) hmoved
  dsimp only [OrderManager.finishConfigSync]
  rw [hmoved]
  refine ⟨hnext, ?_, (transitionIntentAck_frame hmoved).1⟩
  dsimp only
  rw [acknowledged_emit]
  cases outcome <;> exact Bool.or_true _

/-- Applying a configuration: it becomes the active one and is acknowledged as final, or nothing of
this happens. -/
theorem Open.applyConfigSync (hopen : Open owners (orEmpty instruction.intentId) manager)
    (happend : ∀ receipt writeClass, around.append receipt writeClass = .ok ())
    (hquiet : manager.acknowledged = false) (activeHash : Option String) (replay : Bool) :
    let after := manager.applyConfigSync crates around instruction activeHash replay
    Open owners (orEmpty instruction.intentId) after ∧
      ((after.acknowledged = false ∧ after.configConsensus = manager.configConsensus) ∨
        (after.acknowledged = true ∧ ∃ snapshot,
          instruction.validateConfigSyncSnapshot crates = .ok snapshot ∧
            after.configConsensus.active = some snapshot)) := by
  intro after
  simp only [after, OrderManager.applyConfigSync, ConfigConsensus.apply]
  split
  · next err _ _ =>
    obtain ⟨hafter, hsent, hconsensus⟩ := hopen.rejectReceived happend activeHash err.code replay
    exact ⟨hafter, Or.inl ⟨hsent.trans hquiet, hconsensus⟩⟩
  · next snapshot consensus happlied =>
    split at happlied
    · cases happlied
    · next found hvalid =>
      cases happlied
      split
      · obtain ⟨hafter, hsent, hconsensus⟩ :=
          hopen.rejectReceived happend activeHash "invalid_risk_limit" replay
        exact ⟨hafter, Or.inl ⟨hsent.trans hquiet, hconsensus⟩⟩
      · next synced _ =>
        -- The update of the latch touches neither the journal nor what is sent.
        have hstored : Open owners (orEmpty instruction.intentId) (manager.withStorage
            (manager.storage.apply crates snapshot.storageControl around.install)) := hopen
        split
        · next reason _ =>
          obtain ⟨hafter, hsent, hconsensus⟩ :=
            hstored.rejectReceived happend activeHash reason replay
          exact ⟨hafter, Or.inl ⟨hsent.trans hquiet, hconsensus⟩⟩
        · next outcome _ =>
          have happliedOpen : Open owners (orEmpty instruction.intentId)
              { manager.withStorage
                  (manager.storage.apply crates snapshot.storageControl around.install) with
                configConsensus := ⟨some snapshot⟩
                maxGrossExposureUsd := min manager.compiledMaxGrossExposureUsd synced } := hopen
          obtain ⟨hafter, hsent, hconsensus⟩ := happliedOpen.finishConfigSync happend manager
            snapshot outcome activeHash replay
          exact ⟨hafter, Or.inr ⟨hsent, snapshot, hvalid, by rw [hconsensus]⟩⟩

theorem Open.validateConfigSync (hopen : Open owners (orEmpty instruction.intentId) manager)
    (happend : ∀ receipt writeClass, around.append receipt writeClass = .ok ())
    (hquiet : manager.acknowledged = false) (activeHash : Option String) (replay : Bool) :
    let after := manager.validateConfigSync crates around instruction activeHash replay
    Open owners (orEmpty instruction.intentId) after ∧
      ((after.acknowledged = false ∧ after.configConsensus = manager.configConsensus) ∨
        (after.acknowledged = true ∧ ∃ snapshot,
          instruction.validateConfigSyncSnapshot crates = .ok snapshot ∧
            after.configConsensus.active = some snapshot)) := by
  rcases hmoved : manager.transitionIntentAck around (orEmpty instruction.intentId) "VALIDATED" ""
    with ⟨durable, moved⟩
  obtain ⟨rfl, hnext, hsent⟩ := hopen.transition happend (by decide) hmoved
  dsimp only [OrderManager.validateConfigSync]
  rw [hmoved, ← (transitionIntentAck_frame hmoved).1]
  exact hnext.applyConfigSync happend (hsent.trans hquiet) activeHash replay

/-! ### One command -/

/-- The producer and the sequence of a command. -/
def sequenceKey (instruction : AlphaInstruction) : String × ℕ :=
  (orEmpty instruction.producerId, instruction.sequence.getD 0)

/-- Receiving a command where appends succeed: it stops with nothing changed, or goes on with a
journal that knows it. -/
theorem receiveConfigSync_open {journal : JournalState} {activeHash : Option String}
    {goesOn : Option Bool} (hjournal : manager.intentJournal = some journal)
    (hconsistent : journal.Consistent)
    (happend : ∀ receipt writeClass, around.append receipt writeClass = .ok ())
    (hreceived : manager.receiveConfigSync crates around instruction activeHash = (goesOn, next)) :
    next.acknowledged = manager.acknowledged ∧ next.configConsensus = manager.configConsensus ∧
      ((goesOn = none ∧ next.intentJournal = some journal) ∨
        ∃ owners, goesOn.isSome ∧ Open owners (orEmpty instruction.intentId) next ∧
          (∀ key, (journal.sequenceOwners.lookup key).isSome → (owners.lookup key).isSome) ∧
          (owners.lookup (sequenceKey instruction)).isSome ∧
          ((journal.receipts.lookup (orEmpty instruction.intentId)).isSome ∨
            (journal.lastSequences.lookup (orEmpty instruction.producerId)).getD 0 <
              instruction.sequence.getD 0)) := by
  have houtcome := journal.receive_of_append crates instruction around.nowMs happend
  unfold receiveConfigSync at hreceived
  rw [hjournal] at hreceived
  dsimp only at hreceived
  rw [houtcome.1, houtcome.2] at hreceived
  cases hclass : journal.classify crates instruction around.nowMs with
  | new receipt =>
    obtain ⟨hreceipt, -, -, habove⟩ := JournalState.classify_new crates hclass
    obtain ⟨hcompatible, hrecord⟩ := JournalState.compatible_of_new crates hclass
    rw [hclass] at hreceived
    cases hreceived
    have hkey : (receipt.producerId, receipt.sequence) = sequenceKey instruction := by
      rw [hreceipt]
      rfl
    have hid : receipt.intentId = orEmpty instruction.intentId := by
      rw [hreceipt, AlphaInstruction.receipt]
    refine ⟨(acknowledged_emit _ _).trans (Bool.or_false _), rfl,
      Or.inr ⟨_, rfl, ⟨journal.enroll receipt, rfl, ?_, rfl, ?_⟩, fun key hkept ↦ ?_, ?_, ?_⟩⟩
    · rw [hrecord]
      exact hconsistent.record hcompatible
    · rw [← hid]
      dsimp only [JournalState.enroll]
      rw [Finmap.lookup_insert]
      rfl
    · dsimp only [JournalState.enroll]
      rw [lookup_insert_ite]
      split_ifs
      · rfl
      · exact hkept
    · dsimp only [JournalState.enroll]
      rw [hkey, Finmap.lookup_insert]
      rfl
    · rw [hreceipt] at habove
      exact Or.inr habove
  | replay receipt =>
    obtain ⟨hfound, hproducer, hsequence⟩ := JournalState.classify_replay crates hclass
    rw [hclass] at hreceived
    dsimp only at hreceived
    split_ifs at hreceived with hrejected
    · cases hreceived
      exact ⟨(rejectConfig_quiet _ _ _).trans ((acknowledged_emit _ _).trans (Bool.or_false _)),
        rfl, Or.inl ⟨rfl, rfl⟩⟩
    · cases hreceived
      have hknown : (journal.receipts.lookup (orEmpty instruction.intentId)).isSome := by
        rw [hfound]
        rfl
      have hheld : journal.Holds receipt := by
        rwa [JournalState.Holds, hconsistent.keyed hfound]
      have howned := hconsistent.owned.mpr ⟨receipt, hheld, hproducer, hsequence, rfl⟩
      refine ⟨(acknowledged_emit _ _).trans (Bool.or_false _), rfl,
        Or.inr ⟨journal.sequenceOwners, rfl, ⟨journal, rfl, hconsistent, rfl, hknown⟩,
          fun key hkept ↦ hkept, ?_, Or.inl hknown⟩⟩
      rw [sequenceKey, howned]
      rfl
  | conflict =>
    rw [hclass] at hreceived
    cases hreceived
    exact ⟨rejectConfig_quiet _ _ _, rfl, Or.inl ⟨rfl, rfl⟩⟩
  | nonMonotonicSequence =>
    rw [hclass] at hreceived
    cases hreceived
    exact ⟨rejectConfig_quiet _ _ _, rfl, Or.inl ⟨rfl, rfl⟩⟩

/-- Handling a command where appends succeed: the journal keeps its sequence owners, and the
configuration of the command becomes the active one and is acknowledged as final, or stays out. A
command that is acknowledged was known before, or is above all of its producer. -/
theorem handle_open {journal : JournalState} (hjournal : manager.intentJournal = some journal)
    (hconsistent : journal.Consistent)
    (happend : ∀ receipt writeClass, around.append receipt writeClass = .ok ())
    (hquiet : manager.acknowledged = false) :
    let after := manager.handleConfigSyncInstruction crates around instruction
    ∃ journal', after.intentJournal = some journal' ∧ journal'.Consistent ∧
      (∀ key, (journal.sequenceOwners.lookup key).isSome →
        (journal'.sequenceOwners.lookup key).isSome) ∧
      ((after.acknowledged = false ∧ after.configConsensus = manager.configConsensus) ∨
        (after.acknowledged = true ∧
          (∃ snapshot, instruction.validateConfigSyncSnapshot crates = .ok snapshot ∧
            after.configConsensus.active = some snapshot) ∧
          (journal'.sequenceOwners.lookup (sequenceKey instruction)).isSome ∧
          ((journal.receipts.lookup (orEmpty instruction.intentId)).isSome ∨
            (journal.lastSequences.lookup (orEmpty instruction.producerId)).getD 0 <
              instruction.sequence.getD 0))) := by
  intro after
  simp only [after, handleConfigSyncInstruction]
  split
  · exact ⟨journal, hjournal, hconsistent, fun _ hkept ↦ hkept,
      Or.inl ⟨(rejectConfig_quiet _ _ _).trans hquiet, rfl⟩⟩
  · split
    · next next hreceived =>
      obtain ⟨hsent, hconsensus, ⟨-, hsame⟩ | ⟨owners, hgoes, -⟩⟩ :=
        receiveConfigSync_open hjournal hconsistent happend hreceived
      · exact ⟨journal, hsame, hconsistent, fun _ hkept ↦ hkept,
          Or.inl ⟨hsent.trans hquiet, hconsensus⟩⟩
      · cases hgoes
    · next replay next hreceived =>
      obtain ⟨hsent, hconsensus, ⟨hstops, -⟩ | ⟨owners, -, hopen, hkept, hkey, horigin⟩⟩ :=
        receiveConfigSync_open hjournal hconsistent happend hreceived
      · cases hstops
      · obtain ⟨⟨journal', hafter, hafterConsistent, rfl, -⟩, hcases⟩ :=
          hopen.validateConfigSync happend (hsent.trans hquiet)
            manager.configConsensus.appliedHash replay
        refine ⟨journal', hafter, hafterConsistent, hkept, ?_⟩
        rcases hcases with ⟨hnone, hsame⟩ | ⟨hfinal, hsnapshot⟩
        · exact Or.inl ⟨hnone, hsame.trans hconsensus⟩
        · exact Or.inr ⟨hfinal, hsnapshot, hkey, horigin⟩

end OrderManager

/-! ### Sequences of commands -/

/-- The manager, and the configuration commands it acknowledged as final, in order. -/
structure ConfigDesk where
  manager : OrderManager
  accepted : List AlphaInstruction

namespace ConfigDesk

open OrderManager

variable (crates : Crates)

/-- Delivering a command, with what is sent for it alone. -/
def step (desk : ConfigDesk) (delivery : Delivery) : ConfigDesk :=
  let after := ({ desk.manager with sent := [] } : OrderManager).handleConfigSyncInstruction crates
    delivery.2 delivery.1
  ⟨after, if after.acknowledged then desk.accepted ++ [delivery.1] else desk.accepted⟩

/-- The command has the highest sequence of its producer among these. -/
def Newest (instruction : AlphaInstruction) (accepted : List AlphaInstruction) : Prop :=
  ∀ other ∈ accepted, orEmpty other.producerId = orEmpty instruction.producerId →
    other.sequence.getD 0 ≤ instruction.sequence.getD 0

/-- The active configuration is that of the newest accepted command of the producer that was heard
last. -/
def Latest (desk : ConfigDesk) : Prop :=
  ∀ last ∈ desk.accepted.getLast?,
    (∃ snapshot, last.validateConfigSyncSnapshot crates = .ok snapshot ∧
      desk.manager.configConsensus.active = some snapshot) ∧ Newest last desk.accepted

/-- A valid command, in time, with a journal that can be written, and delivered again only if it is
the newest accepted one of its producer. -/
structure Orderly (desk : ConfigDesk) (delivery : Delivery) : Prop where
  valid : delivery.1.protocolError crates delivery.2.nowMs = none
  append : ∀ receipt writeClass, delivery.2.append receipt writeClass = .ok ()
  newest : ∀ journal, desk.manager.intentJournal = some journal →
    (journal.receipts.lookup (orEmpty delivery.1.intentId)).isSome →
      Newest delivery.1 desk.accepted

/-- What every orderly step keeps. -/
structure Sound (desk : ConfigDesk) : Prop where
  journal : ∃ journal, desk.manager.intentJournal = some journal ∧ journal.Consistent ∧
    ∀ instruction ∈ desk.accepted,
      (journal.sequenceOwners.lookup (sequenceKey instruction)).isSome
  latest : desk.Latest crates

variable {crates} {desk : ConfigDesk}

/-- An accepted command is not above the highest sequence of its producer. -/
theorem sequence_le_last {journal : JournalState} (hconsistent : journal.Consistent)
    {instruction : AlphaInstruction}
    (howned : (journal.sequenceOwners.lookup (sequenceKey instruction)).isSome) :
    instruction.sequence.getD 0 ≤
      (journal.lastSequences.lookup (orEmpty instruction.producerId)).getD 0 := by
  obtain ⟨id, hid⟩ := Option.isSome_iff_exists.mp howned
  obtain ⟨receipt, hheld, hproducer, hsequence, -⟩ := hconsistent.owned.mp hid
  obtain ⟨last, hlast, hle⟩ := hconsistent.bounded hheld
  rw [← hproducer, hlast, ← hsequence]
  exact hle

/-- A command that the journal did not know is above all accepted ones of its producer. -/
theorem newest_of_above {journal : JournalState} (hconsistent : journal.Consistent)
    {instruction : AlphaInstruction} {accepted : List AlphaInstruction}
    (howned : ∀ other ∈ accepted,
      (journal.sequenceOwners.lookup (sequenceKey other)).isSome)
    (habove : (journal.lastSequences.lookup (orEmpty instruction.producerId)).getD 0 <
      instruction.sequence.getD 0) : Newest instruction accepted := by
  intro other hother hproducer
  have hle := sequence_le_last hconsistent (howned other hother)
  rw [hproducer] at hle
  exact hle.trans habove.le

/-- What a delivery does to the desk, when appends succeed. -/
theorem Sound.step {delivery : Delivery} (hsound : desk.Sound crates)
    (horderly : desk.Orderly crates delivery) : (desk.step crates delivery).Sound crates := by
  obtain ⟨⟨journal, hjournal, hconsistent, howned⟩, hlatest⟩ := hsound
  let quiet : OrderManager := { desk.manager with sent := [] }
  obtain ⟨journal', hjournal', hconsistent', hkept, hcases⟩ :=
    handle_open (show quiet.intentJournal = some journal from hjournal) hconsistent
      horderly.append rfl
  have hstep : desk.step crates delivery =
      ⟨quiet.handleConfigSyncInstruction crates delivery.2 delivery.1,
        if (quiet.handleConfigSyncInstruction crates delivery.2 delivery.1).acknowledged then
          desk.accepted ++ [delivery.1] else desk.accepted⟩ := rfl
  rw [hstep]
  generalize quiet.handleConfigSyncInstruction crates delivery.2 delivery.1 = after at *
  rcases hcases with ⟨hnone, hsame⟩ | ⟨hfinal, hsnapshot, hkey, horigin⟩
  · rw [hnone]
    refine ⟨⟨journal', hjournal', hconsistent', fun other hother ↦
      hkept _ (howned other hother)⟩, fun last hlast ↦ ?_⟩
    dsimp only at hlast ⊢
    rw [hsame]
    exact hlatest last hlast
  · rw [hfinal]
    have hnewest : Newest delivery.1 desk.accepted := by
      rcases horigin with hknown | habove
      · exact horderly.newest journal hjournal hknown
      · exact newest_of_above hconsistent howned habove
    refine ⟨⟨journal', hjournal', hconsistent', fun other hother ↦ ?_⟩, fun last hlast ↦ ?_⟩
    · rcases List.mem_append.mp hother with hearlier | hnew
      · exact hkept _ (howned other hearlier)
      · rw [List.mem_singleton.mp hnew]
        exact hkey
    · have hlastEq : last = delivery.1 := by simpa using hlast.symm
      subst hlastEq
      refine ⟨hsnapshot, fun other hother hproducer ↦ ?_⟩
      rcases List.mem_append.mp hother with hearlier | hnew
      · exact hnewest other hearlier hproducer
      · rw [List.mem_singleton.mp hnew]

/-- Two configurations that differ in whether entries are paused. -/
def configJson (paused : Bool) : String :=
  "\x7b\"emergency_exit_max_retries\":2,\"emergency_exit_max_slippage_bps\":50," ++
    "\"emergency_exit_readback_attempts\":3,\"max_gross_exposure_usd\":9000," ++
    "\"pause_new_entries\":" ++ (if paused then "true" else "false") ++
    ",\"per_symbol_notional_cap_usd\":2000\x7d"

def configFields (paused : Bool) : List (String × Json) :=
  [("emergency_exit_max_retries", .number "2" (some 2)),
    ("emergency_exit_max_slippage_bps", .number "50" (some 50)),
    ("emergency_exit_readback_attempts", .number "3" (some 3)),
    ("max_gross_exposure_usd", .number "9000" (some 9000)),
    ("pause_new_entries", .bool paused),
    ("per_symbol_notional_cap_usd", .number "2000" (some 2000))]

def configHash (paused : Bool) : String :=
  if paused then "b0e07d2def4b728a47e2ea2fcca2029939b43b9b963de1cbfac7db8e0fa2f321"
  else "d166ae3dbce857118c5a1c339f958e180caad645ba979f0566d0af18c233dd86"

def configCommandHash (paused : Bool) : String :=
  if paused then "0fe8c0d5a6c290f236083f750a0a621a210220683418b5aab0dc5f544b9a1417"
  else "d87dc22682d5961818c32855a1a1943258cde0e95f6dbacc9d08f6d3b27d86d3"

/-- The command of each configuration; the one that pauses is the second. -/
def configCommand (paused : Bool) : AlphaInstruction where
  schemaVersion := some 3
  producerId := some "alpha"
  sequence := some (if paused then 2 else 1)
  createdAtMs := some 1000
  deadlineAtMs := some 2000
  commandHash := some (configCommandHash paused)
  accountId := some "main"
  environment := some "live"
  strategyId := some "basis"
  cycleId := some (if paused then "config-2" else "config-1")
  configVersionHash := some (configHash paused)
  configCanonicalJson := some (configJson paused)
  intent := "CONFIG_SYNC"
  intentId := some (if paused then "config-2" else "config-1")

def configDigest (text : String) : String :=
  if text = configJson false then configHash false
  else if text = configJson true then configHash true
  else if text = (configCommand false).canonicalConfigSyncCommandText then configCommandHash false
  else configCommandHash true

def configCrates : Crates :=
  Crates.ascii configDigest
    (fun text ↦
      if text = configJson false then some (.object (configFields false))
      else if text = configJson true then some (.object (configFields true))
      else none)
    (fun document ↦
      match document with
      | .object fields =>
        configJson (((fields.lookup "pause_new_entries").bind Json.asBool).getD false)
      | _ => "")

/-- A delivery in time, to a journal and a disk that work. -/
def delivered (paused : Bool) : Delivery :=
  (configCommand paused, ⟨1500, 1500, fun _ _ ↦ .ok (), .ok ()⟩)

end ConfigDesk

end Bongus.Engine
