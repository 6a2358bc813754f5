import Bongus.Outbox.Envelope

/-!
# The command outbox

The durable outbox of `bongus/engine/state_store.py` with the client of `bongus/ipc/execution.py`
that sends from it. A command is reserved under the next sequence of its producer before it is
sent, the state of its row follows the sends and the acknowledgements, and `replayPending` sends
again what is not final. Whether a send succeeds is a parameter.

Sends, replays and acknowledgements leave what the rows say of their commands (`commands`). Rows of
one intent have one envelope, which carries the row's intent, producer and sequence (`WellFormed`).
-/

set_option autoImplicit false
set_option relaxedAutoImplicit false

namespace Bongus.Outbox

open Ipc Lib.Fallible Lib.Records Lib.Text

/-- The states of a row. -/
inductive CommandState where
  | ready
  | sendFailed
  | sent
  | received
  | validated
  | submitted
  | terminal
  | rejected
deriving DecidableEq

namespace CommandState

def rank : CommandState → ℕ
  | .ready => 0
  | .sendFailed => 0
  | .sent => 1
  | .received => 2
  | .validated => 3
  | .submitted => 4
  | .terminal => 5
  | .rejected => 5

def name : CommandState → String
  | .ready => "READY"
  | .sendFailed => "SEND_FAILED"
  | .sent => "SENT"
  | .received => "RECEIVED"
  | .validated => "VALIDATED"
  | .submitted => "SUBMITTED"
  | .terminal => "TERMINAL"
  | .rejected => "REJECTED"

def isFinal (state : CommandState) : Bool := state = .terminal || state = .rejected

/-- The state an acknowledgement can report under a name. -/
def ofAck (status : String) : Option CommandState :=
  [received, validated, submitted, terminal, rejected].find? fun state ↦ state.name = status

end CommandState

structure OutboxRow where
  intentId : String
  producerId : String
  sequence : ℕ
  commandHash : String
  envelope : Record
  state : CommandState := .ready
  ackReason : String := ""
  sendAttempts : ℕ := 0

/-- What a row says of its command, without what happened to it since. -/
def OutboxRow.command (row : OutboxRow) : OutboxRow :=
  { row with state := .ready, ackReason := "", sendAttempts := 0 }

/-- The rows in the order of their reservation, and the last sequence of each producer. -/
structure CommandOutbox where
  rows : List OutboxRow := []
  lastSequence : String → ℕ := fun _ ↦ 0

def ackFields : List String :=
  ["event", "schema_version", "intent_id", "producer_id", "sequence", "account_id", "environment",
    "strategy_id", "cycle_id", "config_version_hash", "spot_leg_id", "perp_leg_id",
    "spot_client_order_id", "perp_client_order_id", "command_hash", "ack_status", "reason",
    "event_time_ms", "replay", "declared_config_hash", "applied_config_hash", "config_status"]

def telemetryTransportFields : List String :=
  ["telemetry_ack_required", "telemetry_replay", "telemetry_schema_version", "telemetry_sequence"]

variable (python : Python)

/-! ### Acknowledgements -/

/-- The further fields of the acknowledgement of a configuration. -/
def validateConfigAck (event : Record) (status : CommandState) : Except String Unit := do
  let declaredHash ← stringOf "declared_config_hash" "" (field event "declared_config_hash")
  let appliedHash ← stringOf "applied_config_hash" "" (field event "applied_config_hash")
  let writtenStatus ← stringOf "config_status" "" (field event "config_status")
  let configStatus := python.upper writtenStatus
  if ¬ isHexDigest declaredHash then throw "ConfigAck has an invalid declared_config_hash"
  let contextHash ← stringOf "config_version_hash" "" (field event "config_version_hash")
  if declaredHash ≠ contextHash then
    throw "ConfigAck declared hash conflicts with command context"
  if configStatus = "APPLIED" then
    if status ≠ .terminal ∨ appliedHash ≠ declaredHash then
      throw "applied ConfigAck has inconsistent status or hash"
  else if configStatus = "VOLATILE_LATCHED" then
    if status ∉ [CommandState.validated, .terminal] ∨ appliedHash ≠ declaredHash then
      throw "volatile-latched ConfigAck has inconsistent status or hash"
    if strip (strOrEmpty (field event "reason")) = "" then
      throw "volatile-latched ConfigAck must explain its durability failure"
  else if configStatus = "REJECTED" then
    if status ≠ .rejected then throw "rejected ConfigAck must use REJECTED ACK state"
    if appliedHash ≠ "" ∧ ¬ isHexDigest appliedHash then
      throw "ConfigAck has an invalid applied_config_hash"
  else throw ("unsupported config ACK state " ++ shown configStatus)

/-- The intent and the state of an acknowledgement. -/
def validateAck (event : Record) : Except String (String × CommandState) := do
  refuseUnknown "ACK" event ackFields
  if field event "schema_version" ≠ .int executionProtocolVersion then
    throw "unsupported ACK schema_version"
  let intentId ← stringOf "ACK intent_id" "" (field event "intent_id")
  if strip intentId = "" then throw "ACK is missing intent_id"
  let written ← stringOf "ACK ack_status" "" (field event "ack_status")
  match CommandState.ofAck (python.upper written) with
  | none => throw ("unsupported ACK state " ++ shown (python.upper written))
  | some status =>
    let ackHash ← stringOf "ACK command_hash" "" (field event "command_hash")
    if ¬ isHexDigest ackHash then throw "ACK has an invalid command_hash"
    let eventName ← stringOf "ACK event" "" (field event "event")
    if eventName = "ConfigAck" then validateConfigAck python event status
    return (strip intentId, status)

namespace CommandOutbox

variable (outbox : CommandOutbox)

def row? (intentId : String) : Option OutboxRow :=
  outbox.rows.find? fun row ↦ row.intentId = intentId

/-- An update of the row of an intent. -/
def update (intentId : String) (change : OutboxRow → OutboxRow) : CommandOutbox :=
  { outbox with
    rows := outbox.rows.map fun row ↦ if row.intentId = intentId then change row else row }

/-- The envelope of a command, with the outbox that holds it. A refusal leaves the outbox as it
was, with the sequence. -/
def reserveExecutionCommand (payload : Record) (producerId : String) (ttlMs createdAtMs : ℤ) :
    Except String (CommandOutbox × Record) := do
  let intentId := payloadIntentId payload
  if intentId = "" then throw "execution command requires intent_id"
  let requestedHash ← commandHash python payload
  match outbox.row? intentId with
  | some existing =>
    if existing.commandHash ≠ requestedHash then
      throw ("intent_id " ++ shown intentId ++ " conflicts with its durable command")
    return (outbox, existing.envelope)
  | none =>
    let sequence := outbox.lastSequence producerId + 1
    let envelope ← buildCommandEnvelope python payload producerId sequence ttlMs createdAtMs
    let row : OutboxRow := {
      intentId := intentId
      producerId := producerId
      sequence := sequence
      commandHash := strOrEmpty (field envelope "command_hash")
      envelope := envelope }
    return (⟨outbox.rows ++ [row], Function.update outbox.lastSequence producerId sequence⟩,
      envelope)

def markExecutionCommandSent (intentId : String) : CommandOutbox :=
  outbox.update intentId fun row ↦
    { row with
      state := if row.state ∈ [CommandState.ready, .sendFailed] then .sent else row.state
      sendAttempts := row.sendAttempts + 1 }

def markExecutionCommandSendFailed (intentId reason : String) : CommandOutbox :=
  outbox.update intentId fun row ↦
    { row with
      state := if row.state ∈ [CommandState.ready, .sent, .sendFailed] then .sendFailed
        else row.state
      ackReason := reason
      sendAttempts := row.sendAttempts + 1 }

/-- Sending an envelope, with the error of the socket if there is one: whether it was sent. -/
def sendEnvelope (envelope : Record) (failure : Option String) : Bool × CommandOutbox :=
  let intentId := strOrEmpty (field envelope "intent_id")
  match failure with
  | some reason => (false, outbox.markExecutionCommandSendFailed intentId reason)
  | none => (true, outbox.markExecutionCommandSent intentId)

/-- Applying an acknowledgement: whether its intent is known, and the outbox. -/
def applyExecutionCommandAck (event : Record) : Except String (Bool × CommandOutbox) := do
  let ack ← validateAck python event
  let ackHash := strOrEmpty (field event "command_hash")
  match outbox.row? ack.1 with
  | none => return (false, outbox)
  | some row =>
    if ackHash ≠ "" ∧ ackHash ≠ row.commandHash then
      throw ("ACK hash conflict for intent_id " ++ shown ack.1)
    if row.state.isFinal then
      if ack.2.isFinal ∧ row.state ≠ ack.2 then
        throw ("terminal ACK conflict for " ++ shown ack.1 ++ ": " ++ row.state.name ++ " -> " ++
          ack.2.name)
      return (true, outbox)
    if ack.2.rank < row.state.rank then return (true, outbox)
    return (true, outbox.update ack.1 fun row ↦
      { row with
        state := ack.2
        ackReason := strOrEmpty (field event "reason") })

def handleAck (event : Record) : Except String (Bool × CommandOutbox) :=
  outbox.applyExecutionCommandAck python
    (event.filter fun entry ↦ !telemetryTransportFields.contains entry.1)

/-- Rows by producer and sequence. -/
def ReplayOrder (first second : OutboxRow) : Prop :=
  first.producerId < second.producerId ∨
    (first.producerId = second.producerId ∧ first.sequence ≤ second.sequence)

instance : DecidableRel ReplayOrder := fun _ _ ↦ inferInstanceAs (Decidable (_ ∨ _))

def getReplayableExecutionCommands : List OutboxRow :=
  (outbox.rows.filter fun row ↦ !row.state.isFinal).insertionSort ReplayOrder

/-- What a replay has done so far: the outbox, what it sent, and its counts. -/
structure Replay where
  outbox : CommandOutbox
  transmitted : List Record := []
  sent : ℕ := 0
  expired : ℕ := 0
  failed : ℕ := 0
  blocked : ℕ := 0

/-- One row of a replay. The socket fails on an intent or does not. -/
def replayRow (nowMs : ℤ) (allowRiskIncrease : Bool) (socket : String → Option String)
    (replay : Replay) (row : OutboxRow) : Replay :=
  let envelope := row.envelope
  let intentId := strOrEmpty (field envelope "intent_id")
  if (optionalInteger (field envelope "deadline_at_ms")).getD 0 ≤ nowMs then
    { replay with
      outbox := replay.outbox.markExecutionCommandSendFailed intentId "expired_before_replay"
      expired := replay.expired + 1 }
  else if ¬ allowRiskIncrease ∧
      python.upper (strOrEmpty (field envelope "intent")) ∈ ["ENTER_LONG", "ENTER_SHORT"] then
    { replay with blocked := replay.blocked + 1 }
  else
    let outcome := replay.outbox.sendEnvelope envelope (socket intentId)
    if outcome.1 then
      { replay with
        outbox := outcome.2
        transmitted := replay.transmitted ++ [envelope]
        sent := replay.sent + 1 }
    else { replay with outbox := outcome.2, failed := replay.failed + 1 }

def replayPending (nowMs : ℤ) (allowRiskIncrease : Bool) (socket : String → Option String) :
    Replay :=
  outbox.getReplayableExecutionCommands.foldl (replayRow python nowMs allowRiskIncrease socket)
    { outbox := outbox }

/-! ### What a row says of its command -/

/-- The commands of the rows, in the order of their reservation. -/
def commands : List OutboxRow := outbox.rows.map OutboxRow.command

/-- The intent has a row that is rejected. -/
def Rejected (intentId : String) : Prop :=
  ∃ row ∈ outbox.rows, row.intentId = intentId ∧ row.state = .rejected

variable {python outbox}

/-- A change of rows that leaves their commands. -/
theorem commands_update (intentId : String) {change : OutboxRow → OutboxRow}
    (hchange : ∀ row, (change row).command = row.command) :
    (outbox.update intentId change).commands = outbox.commands := by
  simp only [commands, update, List.map_map]
  refine List.map_congr_left fun row _ ↦ ?_
  dsimp only [Function.comp_apply]
  split_ifs
  · exact hchange row
  · rfl

/-- A change of rows that rejects none. -/
theorem rejected_of_update {target intentId : String} {change : OutboxRow → OutboxRow}
    (hid : ∀ row, (change row).intentId = row.intentId)
    (hstate : ∀ row, (change row).state = .rejected → row.state = .rejected)
    (hrejected : (outbox.update target change).Rejected intentId) : outbox.Rejected intentId := by
  obtain ⟨row, hrow, rfl, hrejected⟩ := hrejected
  obtain ⟨old, hold, rfl⟩ := List.mem_map.mp hrow
  refine ⟨old, hold, ?_, ?_⟩
  · split_ifs
    · exact (hid old).symm
    · rfl
  · split_ifs at hrejected
    · exact hstate old hrejected
    · exact hrejected

/-- What the producer does to the state of a row: it leaves every command, and rejects none. -/
structure Sending (before after : CommandOutbox) : Prop where
  commands : after.commands = before.commands
  rejected : ∀ {intentId}, after.Rejected intentId → before.Rejected intentId

theorem sending_markSent (intentId : String) :
    Sending outbox (outbox.markExecutionCommandSent intentId) := by
  refine ⟨commands_update intentId fun _ ↦ rfl,
    rejected_of_update (fun _ ↦ rfl) fun row hrejected ↦ ?_⟩
  dsimp only at hrejected
  split_ifs at hrejected
  exact hrejected

theorem sending_markFailed (intentId reason : String) :
    Sending outbox (outbox.markExecutionCommandSendFailed intentId reason) := by
  refine ⟨commands_update intentId fun _ ↦ rfl,
    rejected_of_update (fun _ ↦ rfl) fun row hrejected ↦ ?_⟩
  dsimp only at hrejected
  split_ifs at hrejected
  exact hrejected

theorem sending_sendEnvelope (envelope : Record) (failure : Option String) :
    Sending outbox (outbox.sendEnvelope envelope failure).2 := by
  cases failure with
  | none => exact sending_markSent _
  | some reason => exact sending_markFailed _ reason

/-- An acknowledgement leaves every command, and rejects the intent it is about or none. -/
theorem handleAck_spec {event : Record} {known : Bool} {next : CommandOutbox}
    (hack : outbox.handleAck python event = .ok (known, next)) :
    next.commands = outbox.commands ∧ ∀ intentId, next.Rejected intentId →
      outbox.Rejected intentId ∨
        validateAck python
          (event.filter fun entry ↦ !telemetryTransportFields.contains entry.1) =
            .ok (intentId, .rejected) := by
  simp only [handleAck, applyExecutionCommandAck, bind_eq_ok] at hack
  obtain ⟨ack, hvalid, hack⟩ := hack
  split at hack
  · cases hack
    exact ⟨rfl, fun _ ↦ Or.inl⟩
  · simp only [throw_bind, check_eq_ok] at hack
    obtain ⟨-, hack⟩ := hack
    split_ifs at hack
    · cases hack
      exact ⟨rfl, fun _ ↦ Or.inl⟩
    · cases hack
      exact ⟨rfl, fun _ ↦ Or.inl⟩
    · cases hack
      refine ⟨commands_update _ fun _ ↦ rfl, fun intentId hrejected ↦ ?_⟩
      by_cases hstatus : ack.2 = .rejected ∧ ack.1 = intentId
      · obtain ⟨hstate, rfl⟩ := hstatus
        exact Or.inr (hvalid.trans (by rw [← hstate]))
      · obtain ⟨row, hrow, rfl, hrejected⟩ := hrejected
        obtain ⟨old, hold, rfl⟩ := List.mem_map.mp hrow
        split_ifs at hrejected hstatus with hid
        · exact absurd ⟨hrejected, hid.symm⟩ hstatus
        · rw [if_neg hid]
          exact Or.inl ⟨old, hold, rfl, hrejected⟩

/-- Replaying one row leaves every command, and sends its envelope or nothing. -/
theorem replayRow_spec {nowMs : ℤ} {allowRiskIncrease : Bool} {socket : String → Option String}
    {replay next : Replay} {row : OutboxRow}
    (hnext : replayRow python nowMs allowRiskIncrease socket replay row = next) :
    Sending replay.outbox next.outbox ∧ (next.transmitted = replay.transmitted ∨
      next.transmitted = replay.transmitted ++ [row.envelope]) := by
  subst hnext
  dsimp only [replayRow]
  split_ifs
  · exact ⟨sending_markFailed _ _, Or.inl rfl⟩
  · exact ⟨⟨rfl, id⟩, Or.inl rfl⟩
  · exact ⟨sending_sendEnvelope _ _, Or.inr rfl⟩
  · exact ⟨sending_sendEnvelope _ _, Or.inl rfl⟩

/-- Replaying rows leaves every command, and sends envelopes of these rows only. -/
theorem replayRows_spec {nowMs : ℤ} {allowRiskIncrease : Bool} {socket : String → Option String}
    {rows : List OutboxRow} {replay next : Replay}
    (hnext : rows.foldl (replayRow python nowMs allowRiskIncrease socket) replay = next) :
    Sending replay.outbox next.outbox ∧
      ∃ more, next.transmitted = replay.transmitted ++ more ∧
        ∀ envelope ∈ more, ∃ row ∈ rows, row.envelope = envelope := by
  induction rows generalizing replay with
  | nil =>
    subst hnext
    exact ⟨⟨rfl, id⟩, [], by simp, nofun⟩
  | cons row rest ih =>
    obtain ⟨hfirst, hsent⟩ := replayRow_spec
      (rfl : replayRow python nowMs allowRiskIncrease socket replay row = _)
    obtain ⟨hrest, more, hmore, hsource⟩ := ih hnext
    refine ⟨⟨hrest.commands.trans hfirst.commands, fun h ↦ hfirst.rejected (hrest.rejected h)⟩, ?_⟩
    rcases hsent with hsame | hone
    · refine ⟨more, hsame ▸ hmore, fun envelope henvelope ↦ ?_⟩
      obtain ⟨other, hother, hcarried⟩ := hsource envelope henvelope
      exact ⟨other, List.mem_cons_of_mem _ hother, hcarried⟩
    · refine ⟨row.envelope :: more, by rw [hmore, hone, List.append_assoc]; rfl, ?_⟩
      intro envelope henvelope
      rcases List.mem_cons.mp henvelope with rfl | hlater
      · exact ⟨row, List.mem_cons_self, rfl⟩
      · obtain ⟨other, hother, hcarried⟩ := hsource envelope hlater
        exact ⟨other, List.mem_cons_of_mem _ hother, hcarried⟩

/-- A replay leaves every command, and what it sends are envelopes of rows. -/
theorem replayPending_spec {nowMs : ℤ} {allowRiskIncrease : Bool}
    {socket : String → Option String} {replay : Replay}
    (hreplay : outbox.replayPending python nowMs allowRiskIncrease socket = replay) :
    Sending outbox replay.outbox ∧
      ∀ envelope ∈ replay.transmitted, ∃ row ∈ outbox.commands, row.envelope = envelope := by
  obtain ⟨hsending, more, hmore, hsource⟩ := replayRows_spec hreplay
  refine ⟨hsending, fun envelope henvelope ↦ ?_⟩
  rw [hmore] at henvelope
  obtain ⟨row, hrow, hcarried⟩ := hsource envelope henvelope
  have hmem : row ∈ outbox.rows := (List.mem_filter.mp (List.mem_insertionSort _ |>.mp hrow)).1
  exact ⟨row.command, List.mem_map_of_mem hmem, hcarried⟩

/-! ### Well-formed outboxes -/

/-- A row's envelope carries its intent, its producer and its sequence. The intent is not empty and
has no white space around it. -/
structure Carries (row : OutboxRow) : Prop where
  intent : (instruction row.envelope).intentId = some row.intentId
  producer : (instruction row.envelope).producerId = some (strip row.producerId)
  sequence : (instruction row.envelope).sequence = some row.sequence
  positive : 0 < row.sequence
  stripped : strip row.intentId = row.intentId
  nonempty : row.intentId ≠ ""

/-- Rows carry their commands, and one intent has one envelope. -/
structure WellFormed (outbox : CommandOutbox) : Prop where
  carries : ∀ row ∈ outbox.commands, Carries row
  unique : ∀ row ∈ outbox.commands, ∀ other ∈ outbox.commands, row.intentId = other.intentId →
    row.envelope = other.envelope

theorem wellFormed_empty : WellFormed {} := ⟨nofun, nofun⟩

theorem WellFormed.of_commands {next : CommandOutbox} (hformed : outbox.WellFormed)
    (hsame : next.commands = outbox.commands) : next.WellFormed :=
  ⟨hsame ▸ hformed.carries, hsame ▸ hformed.unique⟩

/-- A command that is reserved has a row already, or gets a new one at the end. -/
theorem reserve_cases {payload envelope : Record} {producerId : String} {ttlMs createdAtMs : ℤ}
    {next : CommandOutbox}
    (hreserve : outbox.reserveExecutionCommand python payload producerId ttlMs createdAtMs =
      .ok (next, envelope)) :
    (next = outbox ∧ ∃ row ∈ outbox.commands, row.envelope = envelope) ∨
      ∃ row, next.commands = outbox.commands ++ [row] ∧ row.envelope = envelope ∧
        row.producerId = producerId ∧ Carries row ∧
        ∀ other ∈ outbox.commands, other.intentId ≠ row.intentId := by
  simp only [reserveExecutionCommand, throw_bind, check_eq_ok, bind_eq_ok] at hreserve
  obtain ⟨hnonempty, hash, -, hreserve⟩ := hreserve
  split at hreserve
  · next existing hexisting =>
    simp only [check_eq_ok, pure_eq_ok] at hreserve
    obtain ⟨-, hresult⟩ := hreserve
    cases hresult
    exact Or.inl ⟨rfl, existing.command, List.mem_map_of_mem (List.mem_of_find?_eq_some hexisting),
      rfl⟩
  · next habsent =>
    simp only [bind_eq_ok, pure_eq_ok] at hreserve
    obtain ⟨built, hbuilt, hresult⟩ := hreserve
    cases hresult
    obtain ⟨hintent, hproducer, hsequence, hpositive⟩ := identity_of_built hbuilt
    refine Or.inr ⟨_, List.map_append, rfl, rfl,
      ⟨hintent, hproducer, ?_, ?_, trim_trim _ _, hnonempty⟩, ?_⟩
    · simpa [OutboxRow.command] using hsequence
    · simp [OutboxRow.command]
    · intro other hother hsame
      obtain ⟨row, hrow, rfl⟩ := List.mem_map.mp hother
      have hne := List.find?_eq_none.mp habsent row hrow
      exact hne (by simpa [OutboxRow.command] using hsame)

theorem WellFormed.reserve (hformed : outbox.WellFormed) {payload envelope : Record}
    {producerId : String} {ttlMs createdAtMs : ℤ} {next : CommandOutbox}
    (hreserve : outbox.reserveExecutionCommand python payload producerId ttlMs createdAtMs =
      .ok (next, envelope)) :
    next.WellFormed := by
  rcases reserve_cases hreserve with ⟨rfl, -⟩ | ⟨row, hcommands, -, -, hcarries, hfresh⟩
  · exact hformed
  · refine ⟨?_, ?_⟩
    · intro other hother
      rw [hcommands, List.mem_append, List.mem_singleton] at hother
      rcases hother with hold | rfl
      · exact hformed.carries other hold
      · exact hcarries
    · intro first hfirst second hsecond hid
      rw [hcommands, List.mem_append, List.mem_singleton] at hfirst hsecond
      rcases hfirst with hfirst | rfl
      · rcases hsecond with hsecond | rfl
        · exact hformed.unique first hfirst second hsecond hid
        · exact absurd hid (hfresh first hfirst)
      · rcases hsecond with hsecond | rfl
        · exact absurd hid.symm (hfresh second hsecond)
        · rfl

instance (outbox : CommandOutbox) (intentId : String) : Decidable (outbox.Rejected intentId) :=
  inferInstanceAs (Decidable (∃ row ∈ outbox.rows, _))

end CommandOutbox

/-! ### A sample producer -/

/-- One hash for every text, so that the two sides agree on the hash of a command. -/
def sampleDigest (_ : String) : String :=
  "eedf1a716c107caea9a64dd2c2aea6e33d2efde5c1a76ed7e24ab6b061e7683b"

def samplePython : Python where
  sha256 := sampleDigest
  upper := String.toUpper
  lower := String.toLower
  loads _ := none
  dumps _ := none
  readFloat _ := none

def sampleCrates : Crates := Crates.ascii sampleDigest (fun _ ↦ none) (fun _ ↦ "")

/-- The payload of an entry of one unit. -/
def entryPayload (intentId : String) : Record :=
  [("account_id", .text "main"), ("environment", .text "live"), ("strategy_id", .text "basis"),
    ("cycle_id", .text "cycle-1"), ("config_version_hash", .text "config-1"),
    ("symbol", .text "BTCUSDT"), ("intent", .text "ENTER_LONG"),
    ("quantity", .float 0x3ff0000000000000), ("exposure_scale", .float 0x3ff0000000000000),
    ("intent_id", .text intentId), ("requested_quantity_decimal", .text "1")]

end Bongus.Outbox
