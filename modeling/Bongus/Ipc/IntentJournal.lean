import Bongus.Lib.Fallible
import Bongus.Lib.HashMap
import Bongus.Ipc.Protocol

/-!
# The intent journal

`IntentJournal` of `execution_engine/src/ipc.rs`, without its files. The journal holds the latest
receipt of each intent, the highest sequence of each producer, and the intent that owns each
sequence. `classify` says what a command is to the journal: a replay, a conflict, out of sequence,
or new. `receive` appends the receipt of a new command and only then admits it, and `transition`
appends an updated receipt and only then stores it. Whether an append succeeds is a parameter here.

The two sequence maps are an index of the receipts (`Consistent`): they are determined by them, and
every operation keeps it so.
-/

set_option autoImplicit false
set_option relaxedAutoImplicit false

namespace Bongus.Ipc

open Lib Lib.Fallible Lib.HashMap Lib.Text

structure IntentReceipt where
  schemaVersion : ℕ
  intentId : String
  producerId : String
  sequence : ℕ
  createdAtMs : ℤ
  deadlineAtMs : ℤ
  accountId : String
  environment : String
  strategyId : String
  cycleId : String
  configVersionHash : String
  spotLegId : String
  perpLegId : String
  spotClientOrderId : String
  perpClientOrderId : String
  commandHash : String
  semanticFingerprint : String
  ackStatus : String
  reason : String
  updatedAtMs : ℤ
deriving DecidableEq, Repr

/-! ### Acknowledgement states -/

def ackRank : String → Option ℕ
  | "RECEIVED" => some 0
  | "VALIDATED" => some 1
  | "SUBMITTED" => some 2
  | "TERMINAL" => some 3
  | "REJECTED" => some 3
  | _ => none

/-- Nothing follows a final state, and no state follows a later one. -/
def validAckProgression (current next : String) : Bool :=
  match ackRank current, ackRank next with
  | some currentRank, some nextRank =>
    if current = "TERMINAL" ∨ current = "REJECTED" then current = next
    else currentRank ≤ nextRank
  | _, _ => false

/-- The part of a receipt that its command determines. -/
def IntentReceipt.command (receipt : IntentReceipt) : IntentReceipt :=
  { receipt with ackStatus := "", reason := "", updatedAtMs := 0 }

def sameCommand (left right : IntentReceipt) : Bool := left.command = right.command

/-- The same command in another acknowledgement state. -/
def IntentReceipt.acked (receipt : IntentReceipt) (ackStatus reason : String) (nowMs : ℤ) :
    IntentReceipt :=
  { receipt with ackStatus := ackStatus, reason := reason, updatedAtMs := nowMs }

theorem validAckProgression_self {status : String} (hstatus : (ackRank status).isSome) :
    validAckProgression status status = true := by
  obtain ⟨rank, hrank⟩ := Option.isSome_iff_exists.mp hstatus
  unfold validAckProgression
  rw [hrank]
  simp

/-! ### The state -/

structure JournalState where
  receipts : HashMap String IntentReceipt
  lastSequences : HashMap String ℕ
  sequenceOwners : HashMap (String × ℕ) String

def JournalState.empty : JournalState := ⟨∅, ∅, ∅⟩

inductive ReceiptDecision where
  | new (receipt : IntentReceipt)
  | replay (receipt : IntentReceipt)
  | conflict
  | nonMonotonicSequence
deriving DecidableEq, Repr

/-- Which part of the byte budget an append may use. -/
inductive JournalWriteClass where
  | newRisk
  | survivalCommand
  | transition
deriving DecidableEq, Repr

variable (crates : Crates)

/-- The receipt of a command that is received for the first time. -/
def AlphaInstruction.receipt (instruction : AlphaInstruction) (nowMs : ℤ) : IntentReceipt where
  schemaVersion := instruction.schemaVersion.getD executionProtocolVersion
  intentId := orEmpty instruction.intentId
  producerId := orEmpty instruction.producerId
  sequence := instruction.sequence.getD 0
  createdAtMs := instruction.createdAtMs.getD 0
  deadlineAtMs := instruction.deadlineAtMs.getD 0
  accountId := orEmpty instruction.accountId
  environment := orEmpty instruction.environment
  strategyId := orEmpty instruction.strategyId
  cycleId := orEmpty instruction.cycleId
  configVersionHash := orEmpty instruction.configVersionHash
  spotLegId := orEmpty instruction.spotLegId
  perpLegId := orEmpty instruction.perpLegId
  spotClientOrderId := orEmpty instruction.spotClientOrderId
  perpClientOrderId := orEmpty instruction.perpClientOrderId
  commandHash := orEmpty instruction.commandHash
  semanticFingerprint := instruction.semanticFingerprint crates
  ackStatus := "RECEIVED"
  reason := ""
  updatedAtMs := nowMs

@[simp] theorem AlphaInstruction.intentId_receipt (instruction : AlphaInstruction) (nowMs : ℤ) :
    (instruction.receipt crates nowMs).intentId = orEmpty instruction.intentId := rfl

/-- The fields of a receipt that a repeated command must agree with. -/
def IntentReceipt.matches (existing : IntentReceipt) (instruction : AlphaInstruction) : Bool :=
  existing.semanticFingerprint = instruction.semanticFingerprint crates &&
    existing.commandHash = orEmpty instruction.commandHash &&
    existing.schemaVersion = instruction.schemaVersion.getD executionProtocolVersion &&
    existing.producerId = orEmpty instruction.producerId &&
    existing.sequence = instruction.sequence.getD 0 &&
    existing.createdAtMs = instruction.createdAtMs.getD 0 &&
    existing.deadlineAtMs = instruction.deadlineAtMs.getD 0

/-- The identity of a receipt is that of its command. -/
theorem IntentReceipt.identity_of_command {receipt : IntentReceipt} {command : AlphaInstruction}
    (hsame : receipt.command = (command.receipt crates 0).command) :
    receipt.intentId = orEmpty command.intentId ∧
      receipt.producerId = orEmpty command.producerId ∧
      receipt.sequence = command.sequence.getD 0 := by
  simp only [IntentReceipt.command, AlphaInstruction.receipt, IntentReceipt.mk.injEq] at hsame
  exact ⟨hsame.2.1, hsame.2.2.1, hsame.2.2.2.1⟩

/-- A receipt agrees with the command it is of. -/
theorem IntentReceipt.matches_of_command {receipt : IntentReceipt} {command : AlphaInstruction}
    (hsame : receipt.command = (command.receipt crates 0).command) :
    receipt.matches crates command = true := by
  simp only [IntentReceipt.command, AlphaInstruction.receipt, IntentReceipt.mk.injEq] at hsame
  obtain ⟨hversion, -, hproducer, hsequence, hcreated, hdeadline, -, -, -, -, -, -, -, -, -, hhash,
    hfingerprint, -⟩ := hsame
  simp [IntentReceipt.matches, hversion, hproducer, hsequence, hcreated, hdeadline, hhash,
    hfingerprint]

/-- Exits and configurations may use part of the reserve that new risk may not. -/
def AlphaInstruction.writeClass (instruction : AlphaInstruction) : JournalWriteClass :=
  if trimmed instruction.intent ∈ ["EXIT_LONG", "EXIT_SHORT", configSyncIntent] then
    .survivalCommand
  else .newRisk

namespace JournalState

variable (state : JournalState)

/-- What a command is to the journal. `new` is not yet durable. -/
def classify (instruction : AlphaInstruction) (nowMs : ℤ) : ReceiptDecision :=
  let producerId := orEmpty instruction.producerId
  let sequence := instruction.sequence.getD 0
  match state.receipts.lookup (orEmpty instruction.intentId) with
  | some existing =>
    if existing.matches crates instruction then .replay existing else .conflict
  | none =>
    if (state.sequenceOwners.lookup (producerId, sequence)).isSome then .nonMonotonicSequence
    else if sequence ≤ (state.lastSequences.lookup producerId).getD 0 then .nonMonotonicSequence
    else .new (instruction.receipt crates nowMs)

/-- The state after a new receipt is durable. -/
def enroll (receipt : IntentReceipt) : JournalState where
  receipts := state.receipts.insert receipt.intentId receipt
  lastSequences := state.lastSequences.insert receipt.producerId receipt.sequence
  sequenceOwners :=
    state.sequenceOwners.insert (receipt.producerId, receipt.sequence) receipt.intentId

/-- The state after an updated receipt is durable. -/
def store (receipt : IntentReceipt) : JournalState :=
  { state with receipts := state.receipts.insert receipt.intentId receipt }

/-- What an append to the journal returns. -/
abbrev Append := IntentReceipt → JournalWriteClass → Except String Unit

/-- Appends that succeed. -/
def writable : Append := fun _ _ ↦ .ok ()

def receive (instruction : AlphaInstruction) (nowMs : ℤ) (append : Append) :
    Except String ReceiptDecision × JournalState :=
  match state.classify crates instruction nowMs with
  | .new receipt =>
    match append receipt instruction.writeClass with
    | .error message => (.error message, state)
    | .ok () => (.ok (.new receipt), state.enroll receipt)
  | decision => (.ok decision, state)

/-- What a request to move an acknowledgement is to the journal. -/
inductive Progress where
  | absent
  | unsupported
  | unchanged (receipt : IntentReceipt)
  | update (receipt : IntentReceipt)

/-- Duplicate, regressive and final callbacks change nothing. -/
def progress (intentId ackStatus reason : String) (nowMs : ℤ) : Progress :=
  match state.receipts.lookup intentId with
  | none => .absent
  | some existing =>
    if (ackRank ackStatus).isNone then .unsupported
    else if ¬ validAckProgression existing.ackStatus ackStatus ∨ existing.ackStatus = ackStatus then
      .unchanged existing
    else .update (existing.acked ackStatus reason nowMs)

def transition (intentId ackStatus reason : String) (nowMs : ℤ) (append : Append) :
    Except String (Option IntentReceipt) × JournalState :=
  match state.progress intentId ackStatus reason nowMs with
  | .absent => (.ok none, state)
  | .unsupported => (.error ("unsupported ACK transition state " ++ ackStatus), state)
  | .unchanged receipt => (.ok (some receipt), state)
  | .update receipt =>
    match append receipt .transition with
    | .error message => (.error message, state)
    | .ok () => (.ok (some receipt), state.store receipt)

/-- The state after a receipt is read back: it is stored and both sequence maps take it up. -/
def record (receipt : IntentReceipt) : JournalState where
  receipts := state.receipts.insert receipt.intentId receipt
  lastSequences := state.lastSequences.insert receipt.producerId
    (max ((state.lastSequences.lookup receipt.producerId).getD 0) receipt.sequence)
  sequenceOwners :=
    state.sequenceOwners.insert (receipt.producerId, receipt.sequence) receipt.intentId

/-- A later record of an intent repeats its command and does not take its acknowledgement back. -/
def checkPrevious (line : String) (receipt : IntentReceipt) :
    Option IntentReceipt → Except String Unit
  | none => return
  | some previous => do
    if ¬ sameCommand previous receipt then
      throw ("intent command changed inside journal on line " ++ line)
    if ¬ validAckProgression previous.ackStatus receipt.ackStatus then
      throw ("non-monotonic intent ACK on journal line " ++ line ++ ": " ++ previous.ackStatus ++
        " -> " ++ receipt.ackStatus)

/-- Reading one receipt back from the journal, on the given line. -/
def absorb (lineNo : ℕ) (receipt : IntentReceipt) : Except String JournalState := do
  let line := toString lineNo
  if (ackRank receipt.ackStatus).isNone then
    throw ("invalid intent journal ACK state on line " ++ line ++ ": " ++ receipt.ackStatus)
  if receipt.sequence = 0 ∨ isBlank unicodeBlank receipt.intentId ∨
      isBlank unicodeBlank receipt.producerId then
    throw ("invalid intent journal identity on line " ++ line)
  if (state.sequenceOwners.lookup (receipt.producerId, receipt.sequence)).any
      (· ≠ receipt.intentId) then
    throw ("producer sequence reused by distinct intents on line " ++ line)
  checkPrevious line receipt (state.receipts.lookup receipt.intentId)
  return state.record receipt

/-! ### The sequence maps index the receipts -/

/-- The journal holds this receipt. -/
def Holds (receipt : IntentReceipt) : Prop :=
  state.receipts.lookup receipt.intentId = some receipt

/-- A receipt that the journal can read back. -/
def Wellformed (receipt : IntentReceipt) : Prop :=
  (ackRank receipt.ackStatus).isSome ∧ receipt.sequence ≠ 0 ∧
    isBlank unicodeBlank receipt.intentId = false ∧
    isBlank unicodeBlank receipt.producerId = false

/-- Every receipt is stored under its own id, and the sequence maps say of the receipts which intent
owns a sequence and which sequence is the highest of a producer. -/
structure Consistent : Prop where
  keyed : ∀ {id receipt}, state.receipts.lookup id = some receipt → receipt.intentId = id
  owned : ∀ {producer sequence id}, state.sequenceOwners.lookup (producer, sequence) = some id ↔
    ∃ receipt, state.Holds receipt ∧ receipt.producerId = producer ∧
      receipt.sequence = sequence ∧ receipt.intentId = id
  bounded : ∀ {receipt}, state.Holds receipt →
    ∃ last, state.lastSequences.lookup receipt.producerId = some last ∧ receipt.sequence ≤ last
  attained : ∀ {producer last}, state.lastSequences.lookup producer = some last →
    ∃ receipt, state.Holds receipt ∧ receipt.producerId = producer ∧ receipt.sequence = last

variable {state}

theorem consistent_empty : empty.Consistent where
  keyed h := by simp [empty] at h
  owned := by simp [empty, Holds]
  bounded h := by simp [empty, Holds] at h
  attained h := by simp [empty] at h

/-- A highest sequence is also the highest of a state with the same receipts. -/
private theorem Consistent.last_of_holds {other : JournalState} (hstate : state.Consistent)
    (hother : other.Consistent) (hholds : ∀ receipt, state.Holds receipt ↔ other.Holds receipt)
    {producer : String} {last : ℕ} (hlast : state.lastSequences.lookup producer = some last) :
    other.lastSequences.lookup producer = some last := by
  obtain ⟨receipt, hreceipt, rfl, rfl⟩ := hstate.attained hlast
  obtain ⟨bound, hbound, hle⟩ := hother.bounded ((hholds receipt).mp hreceipt)
  obtain ⟨top, htop, hproducer, rfl⟩ := hother.attained hbound
  obtain ⟨bound', hbound', hle'⟩ := hstate.bounded ((hholds top).mpr htop)
  rw [hproducer, hlast, Option.some.injEq] at hbound'
  rw [hbound, Option.some.injEq]
  omega

/-- The receipts determine the rest of a consistent state. -/
theorem Consistent.ext {other : JournalState} (hstate : state.Consistent)
    (hother : other.Consistent) (hreceipts : state.receipts = other.receipts) : state = other := by
  have hholds : ∀ receipt, state.Holds receipt ↔ other.Holds receipt := fun receipt ↦ by
    unfold Holds
    rw [hreceipts]
  have howners : state.sequenceOwners = other.sequenceOwners := by
    refine Finmap.ext_lookup fun key ↦ Option.ext fun id ↦ ?_
    rw [hstate.owned, hother.owned]
    simp only [hholds]
  have hlast : state.lastSequences = other.lastSequences := by
    refine Finmap.ext_lookup fun producer ↦ Option.ext fun last ↦ ?_
    exact ⟨hstate.last_of_holds hother hholds,
      hother.last_of_holds hstate fun receipt ↦ (hholds receipt).symm⟩
  cases state
  cases other
  simp_all

/-- No two intents have the same producer and sequence. -/
theorem Consistent.unique (hstate : state.Consistent) {first second : IntentReceipt}
    (hfirst : state.Holds first) (hsecond : state.Holds second)
    (hproducer : first.producerId = second.producerId)
    (hsequence : first.sequence = second.sequence) : first = second := by
  have hown := hstate.owned.mpr ⟨first, hfirst, hproducer, hsequence, rfl⟩
  have hown' := hstate.owned.mpr ⟨second, hsecond, rfl, rfl, rfl⟩
  have hid : first.intentId = second.intentId := Option.some.inj (hown.symm.trans hown')
  unfold Holds at hfirst hsecond
  rw [hid, hsecond] at hfirst
  exact (Option.some.inj hfirst).symm

/-- The receipts after one more is stored under its own id. -/
theorem holds_insert {receipts : HashMap String IntentReceipt} {receipt other : IntentReceipt} :
    (receipts.insert receipt.intentId receipt).lookup other.intentId = some other ↔
      other = receipt ∨
        (other.intentId ≠ receipt.intentId ∧ receipts.lookup other.intentId = some other) := by
  rw [lookup_insert_ite]
  by_cases hid : other.intentId = receipt.intentId
  · rw [if_pos hid, Option.some.injEq]
    constructor
    · intro h
      exact Or.inl h.symm
    · rintro (rfl | ⟨hne, -⟩)
      · rfl
      · exact absurd hid hne
  · rw [if_neg hid]
    constructor
    · intro h
      exact Or.inr ⟨hid, h⟩
    · rintro (rfl | ⟨-, h⟩)
      · exact absurd rfl hid
      · exact h

/-- An intent with a receipt still has one when another receipt is stored. -/
theorem holds_id_record {receipt stored : IntentReceipt} (hheld : state.Holds receipt) :
    ∃ held, (state.record stored).Holds held ∧ held.intentId = receipt.intentId := by
  by_cases hid : receipt.intentId = stored.intentId
  · exact ⟨stored, holds_insert.mpr (Or.inl rfl), hid.symm⟩
  · exact ⟨receipt, holds_insert.mpr (Or.inr ⟨hid, hheld⟩), rfl⟩

/-- A receipt agrees with the index: its sequence is free or its own, and an earlier receipt of its
intent has its producer and sequence. -/
structure Compatible (state : JournalState) (receipt : IntentReceipt) : Prop where
  owner : ∀ {id}, state.sequenceOwners.lookup (receipt.producerId, receipt.sequence) = some id →
    id = receipt.intentId
  previous : ∀ {old}, state.receipts.lookup receipt.intentId = some old →
    old.producerId = receipt.producerId ∧ old.sequence = receipt.sequence

/-- Recording a compatible receipt keeps the index. -/
theorem Consistent.record (hstate : state.Consistent) {receipt : IntentReceipt}
    (hcompatible : state.Compatible receipt) : (state.record receipt).Consistent := by
  have hnext : ∀ other, (state.record receipt).Holds other ↔ other = receipt ∨
      (other.intentId ≠ receipt.intentId ∧ state.Holds other) := fun other ↦ holds_insert
  -- A receipt that is replaced had the producer and sequence of the new one.
  have hkept : ∀ {other}, state.Holds other → (other.producerId, other.sequence) ≠
      (receipt.producerId, receipt.sequence) → (state.record receipt).Holds other := by
    intro other hother hne
    refine (hnext other).mpr (Or.inr ⟨fun hid ↦ hne ?_, hother⟩)
    rw [Holds, hid] at hother
    obtain ⟨hproducer, hsequence⟩ := hcompatible.previous hother
    rw [hproducer, hsequence]
  refine ⟨fun {id found} hfound ↦ ?_, fun {producer sequence id} ↦ ?_, fun {other} hother ↦ ?_,
    fun {producer last} hlast ↦ ?_⟩
  · rw [JournalState.record, lookup_insert_ite] at hfound
    split_ifs at hfound with hid
    · rw [← Option.some.inj hfound, hid]
    · exact hstate.keyed hfound
  · rw [JournalState.record, lookup_insert_ite]
    split_ifs with hkey
    · rw [Prod.mk.injEq] at hkey
      obtain ⟨rfl, rfl⟩ := hkey
      rw [Option.some.injEq]
      constructor
      · rintro rfl
        exact ⟨receipt, (hnext receipt).mpr (Or.inl rfl), rfl, rfl, rfl⟩
      · rintro ⟨other, hother, hproducer, hsequence, rfl⟩
        rcases (hnext other).mp hother with rfl | ⟨-, hheld⟩
        · rfl
        · exact (hcompatible.owner (hstate.owned.mpr
            ⟨other, hheld, hproducer, hsequence, rfl⟩)).symm
    · rw [hstate.owned]
      constructor
      · rintro ⟨other, hheld, rfl, rfl, rfl⟩
        exact ⟨other, hkept hheld hkey, rfl, rfl, rfl⟩
      · rintro ⟨other, hother, rfl, rfl, rfl⟩
        rcases (hnext other).mp hother with rfl | ⟨-, hheld⟩
        · exact absurd rfl hkey
        · exact ⟨other, hheld, rfl, rfl, rfl⟩
  · rw [JournalState.record, lookup_insert_ite]
    rcases (hnext other).mp hother with rfl | ⟨-, hheld⟩
    · exact ⟨_, if_pos rfl, le_max_right _ _⟩
    · obtain ⟨last, hlast, hle⟩ := hstate.bounded hheld
      split_ifs with hproducer
      · refine ⟨_, rfl, le_max_of_le_left ?_⟩
        rw [← hproducer, hlast]
        exact hle
      · exact ⟨last, hlast, hle⟩
  · rw [JournalState.record, lookup_insert_ite] at hlast
    split_ifs at hlast with hproducer
    · subst hproducer
      rw [Option.some.injEq] at hlast
      cases hold : state.lastSequences.lookup receipt.producerId with
      | none =>
        rw [hold, Option.getD_none, Nat.zero_max] at hlast
        exact ⟨receipt, (hnext receipt).mpr (Or.inl rfl), rfl, hlast⟩
      | some old =>
        rw [hold, Option.getD_some] at hlast
        rcases le_or_gt old receipt.sequence with hle | hgt
        · rw [max_eq_right hle] at hlast
          exact ⟨receipt, (hnext receipt).mpr (Or.inl rfl), rfl, hlast⟩
        · rw [max_eq_left hgt.le] at hlast
          obtain ⟨top, htop, htopProducer, htopSequence⟩ := hstate.attained hold
          refine ⟨top, hkept htop fun hsame ↦ ?_, htopProducer, htopSequence.trans hlast⟩
          rw [Prod.mk.injEq] at hsame
          omega
    · obtain ⟨top, htop, rfl, htopSequence⟩ := hstate.attained hlast
      refine ⟨top, hkept htop fun hsame ↦ ?_, rfl, htopSequence⟩
      rw [Prod.mk.injEq] at hsame
      exact hproducer hsame.1

/-- Admitting a receipt above the highest sequence records it. -/
theorem enroll_eq_record {receipt : IntentReceipt}
    (habove : (state.lastSequences.lookup receipt.producerId).getD 0 < receipt.sequence) :
    state.enroll receipt = state.record receipt := by
  rw [enroll, JournalState.record, max_eq_right habove.le]

/-- Storing another acknowledgement of a command that is held records it. -/
theorem Consistent.store_eq_record (hstate : state.Consistent) {old receipt : IntentReceipt}
    (hold : state.receipts.lookup receipt.intentId = some old)
    (hproducer : old.producerId = receipt.producerId)
    (hsequence : old.sequence = receipt.sequence) :
    state.store receipt = state.record receipt := by
  have hid := hstate.keyed hold
  have hheld : state.Holds old := by rwa [Holds, hid]
  have howners : state.sequenceOwners = state.sequenceOwners.insert
      (receipt.producerId, receipt.sequence) receipt.intentId := by
    refine Finmap.ext_lookup fun key ↦ ?_
    rw [lookup_insert_ite]
    split_ifs with hkey
    · rw [hkey]
      exact hstate.owned.mpr ⟨old, hheld, hproducer, hsequence, hid⟩
    · rfl
  have hlast : state.lastSequences = state.lastSequences.insert receipt.producerId
      (max ((state.lastSequences.lookup receipt.producerId).getD 0) receipt.sequence) := by
    obtain ⟨last, hlast, hle⟩ := hstate.bounded hheld
    rw [hproducer] at hlast
    refine Finmap.ext_lookup fun producer ↦ ?_
    rw [lookup_insert_ite]
    split_ifs with hkey
    · rw [hkey, hlast, Option.getD_some, ← hsequence, max_eq_left hle]
    · rfl
  rw [store, JournalState.record, ← howners, ← hlast]

/-! ### What receiving and moving an acknowledgement do -/

/-- A command is new when its intent is unknown and its sequence is above all of its producer. -/
theorem classify_new {instruction : AlphaInstruction} {nowMs : ℤ} {receipt : IntentReceipt}
    (hnew : state.classify crates instruction nowMs = .new receipt) :
    receipt = instruction.receipt crates nowMs ∧
      state.receipts.lookup receipt.intentId = none ∧
      state.sequenceOwners.lookup (receipt.producerId, receipt.sequence) = none ∧
      (state.lastSequences.lookup receipt.producerId).getD 0 < receipt.sequence := by
  unfold classify at hnew
  split at hnew
  · split at hnew <;> cases hnew
  · next hunknown =>
    dsimp only at hnew
    split_ifs at hnew with howned hold
    cases hnew
    have howner : state.sequenceOwners.lookup
        (orEmpty instruction.producerId, instruction.sequence.getD 0) = none := by
      simpa using howned
    exact ⟨rfl, hunknown, howner, not_le.mp hold⟩

/-- A replay repeats the producer and the sequence of the receipt of its intent. -/
theorem classify_replay {instruction : AlphaInstruction} {nowMs : ℤ} {receipt : IntentReceipt}
    (hreplay : state.classify crates instruction nowMs = .replay receipt) :
    state.receipts.lookup (orEmpty instruction.intentId) = some receipt ∧
      receipt.producerId = orEmpty instruction.producerId ∧
      receipt.sequence = instruction.sequence.getD 0 := by
  unfold classify at hreplay
  split at hreplay
  · next existing hexisting =>
    split_ifs at hreplay with hmatches
    cases hreplay
    simp only [IntentReceipt.matches, Bool.and_eq_true, decide_eq_true_eq] at hmatches
    exact ⟨hexisting, hmatches.1.1.1.2, hmatches.1.1.2⟩
  · dsimp only at hreplay
    split_ifs at hreplay

theorem progress_update {intentId ackStatus reason : String} {nowMs : ℤ} {receipt : IntentReceipt}
    (hupdate : state.progress intentId ackStatus reason nowMs = .update receipt) :
    ∃ old, state.receipts.lookup intentId = some old ∧
      receipt = old.acked ackStatus reason nowMs ∧ (ackRank ackStatus).isSome ∧
      validAckProgression old.ackStatus ackStatus = true ∧ old.ackStatus ≠ ackStatus := by
  unfold progress at hupdate
  split at hupdate
  · cases hupdate
  · next old hold =>
    split_ifs at hupdate with hrank hchange
    cases hupdate
    rw [not_or, not_not] at hchange
    exact ⟨old, hold, rfl, by simpa [Option.isSome_iff_ne_none] using hrank, hchange⟩

/-- `receive` leaves the state, or admits the receipt of a new command after its append. -/
theorem receive_cases (instruction : AlphaInstruction) (nowMs : ℤ) (append : Append) :
    (state.receive crates instruction nowMs append).2 = state ∨
      ∃ receipt, state.classify crates instruction nowMs = .new receipt ∧
        append receipt instruction.writeClass = .ok () ∧
        state.receive crates instruction nowMs append =
          (.ok (.new receipt), state.enroll receipt) := by
  unfold receive
  cases hclass : state.classify crates instruction nowMs with
  | new receipt =>
    cases happend : append receipt instruction.writeClass with
    | error message => exact Or.inl (by simp [happend])
    | ok => exact Or.inr ⟨receipt, rfl, happend, by simp [happend]⟩
  | replay | conflict | nonMonotonicSequence => exact Or.inl rfl

/-- A command that `receive` returns as new was new, and its receipt is in the state. -/
theorem receive_new {instruction : AlphaInstruction} {nowMs : ℤ} {append : Append}
    {receipt : IntentReceipt}
    (hnew : (state.receive crates instruction nowMs append).1 = .ok (.new receipt)) :
    state.classify crates instruction nowMs = .new receipt ∧
      (state.receive crates instruction nowMs append).2 = state.enroll receipt := by
  unfold receive at hnew ⊢
  cases hclass : state.classify crates instruction nowMs with
  | new found =>
    cases happend : append found instruction.writeClass with
    | error message => simp [hclass, happend] at hnew
    | ok =>
      simp only [hclass, happend, Except.ok.injEq, ReceiptDecision.new.injEq] at hnew
      subst hnew
      simp [happend]
  | replay | conflict | nonMonotonicSequence => simp [hclass] at hnew

/-- When appends succeed, a command is received as what it is to the journal. -/
theorem receive_of_append (instruction : AlphaInstruction) (nowMs : ℤ) {append : Append}
    (happend : ∀ receipt writeClass, append receipt writeClass = .ok ()) :
    (state.receive crates instruction nowMs append).1 =
        .ok (state.classify crates instruction nowMs) ∧
      (state.receive crates instruction nowMs append).2 =
        match state.classify crates instruction nowMs with
        | .new receipt => state.enroll receipt
        | _ => state := by
  unfold receive
  cases hclass : state.classify crates instruction nowMs with
  | new receipt => simp [happend]
  | replay | conflict | nonMonotonicSequence => exact ⟨rfl, rfl⟩

/-- `transition` leaves the state, or stores an updated receipt after its append. -/
theorem transition_cases (intentId ackStatus reason : String) (nowMs : ℤ) (append : Append) :
    (state.transition intentId ackStatus reason nowMs append).2 = state ∨
      ∃ receipt, state.progress intentId ackStatus reason nowMs = .update receipt ∧
        append receipt .transition = .ok () ∧
        state.transition intentId ackStatus reason nowMs append =
          (.ok (some receipt), state.store receipt) := by
  unfold transition
  cases hprogress : state.progress intentId ackStatus reason nowMs with
  | update receipt =>
    cases happend : append receipt .transition with
    | error message => exact Or.inl (by simp [happend])
    | ok => exact Or.inr ⟨receipt, rfl, happend, by simp [happend]⟩
  | absent | unsupported | unchanged => exact Or.inl rfl

/-- When appends succeed, the acknowledgement of a known intent moves to a known state or stays, and
the sequences keep their owners. -/
theorem transition_of_append {intentId ackStatus : String} (reason : String) (nowMs : ℤ)
    {append : Append} (happend : ∀ receipt writeClass, append receipt writeClass = .ok ())
    (hknown : (state.receipts.lookup intentId).isSome = true)
    (hrank : (ackRank ackStatus).isSome = true) :
    ∃ receipt, (state.transition intentId ackStatus reason nowMs append).1 = .ok (some receipt) ∧
      (state.transition intentId ackStatus reason nowMs append).2.sequenceOwners =
        state.sequenceOwners ∧
      ((state.transition intentId ackStatus reason nowMs append).2.receipts.lookup
        intentId).isSome = true := by
  obtain ⟨old, hold⟩ := Option.isSome_iff_exists.mp hknown
  have hsome : (ackRank ackStatus).isNone = false := by simpa using hrank
  unfold transition progress
  rw [hold]
  dsimp only
  by_cases hstays : ¬ validAckProgression old.ackStatus ackStatus ∨ old.ackStatus = ackStatus
  · rw [if_neg (by simp [hsome]), if_pos hstays]
    exact ⟨old, rfl, rfl, hknown⟩
  · rw [if_neg (by simp [hsome]), if_neg hstays]
    dsimp only
    rw [happend]
    refine ⟨_, rfl, rfl, ?_⟩
    dsimp only [store]
    rw [lookup_insert_ite]
    split_ifs
    · rfl
    · exact hknown

theorem compatible_of_new {instruction : AlphaInstruction} {nowMs : ℤ} {receipt : IntentReceipt}
    (hnew : state.classify crates instruction nowMs = .new receipt) :
    state.Compatible receipt ∧ state.enroll receipt = state.record receipt := by
  obtain ⟨-, hunknown, howner, habove⟩ := classify_new crates hnew
  refine ⟨⟨fun {id} hid ↦ ?_, fun {old} hold ↦ ?_⟩, enroll_eq_record habove⟩
  · rw [howner] at hid
    cases hid
  · rw [hunknown] at hold
    cases hold

theorem Consistent.compatible_of_update (hstate : state.Consistent)
    {intentId ackStatus reason : String} {nowMs : ℤ} {receipt : IntentReceipt}
    (hupdate : state.progress intentId ackStatus reason nowMs = .update receipt) :
    state.Compatible receipt ∧ state.store receipt = state.record receipt := by
  obtain ⟨old, hold, rfl, -⟩ := progress_update hupdate
  have hid := hstate.keyed hold
  have hlookup : state.receipts.lookup (old.acked ackStatus reason nowMs).intentId = some old := by
    rw [show (old.acked ackStatus reason nowMs).intentId = intentId from hid]
    exact hold
  refine ⟨⟨fun {owner} howner ↦ ?_, fun {previous} hprevious ↦ ?_⟩,
    hstate.store_eq_record hlookup rfl rfl⟩
  · obtain ⟨other, hother, hproducer, hsequence, rfl⟩ := hstate.owned.mp howner
    have hheld : state.Holds old := by rwa [Holds, hid]
    rw [hstate.unique hother hheld hproducer hsequence]
    rfl
  · rw [hlookup, Option.some.injEq] at hprevious
    rw [← hprevious]
    exact ⟨rfl, rfl⟩

theorem Consistent.receive (hstate : state.Consistent) (instruction : AlphaInstruction)
    (nowMs : ℤ) (append : Append) :
    (state.receive crates instruction nowMs append).2.Consistent := by
  rcases receive_cases crates instruction nowMs append with hsame | ⟨receipt, hnew, -, henroll⟩
  · rwa [hsame]
  · obtain ⟨hcompatible, hrecord⟩ := compatible_of_new crates hnew
    rw [henroll, hrecord]
    exact hstate.record hcompatible

theorem Consistent.transition (hstate : state.Consistent) (intentId ackStatus reason : String)
    (nowMs : ℤ) (append : Append) :
    (state.transition intentId ackStatus reason nowMs append).2.Consistent := by
  rcases transition_cases intentId ackStatus reason nowMs append with
    hsame | ⟨receipt, hupdate, -, hstore⟩
  · rwa [hsame]
  · obtain ⟨hcompatible, hrecord⟩ := hstate.compatible_of_update hupdate
    rw [hstore, hrecord]
    exact hstate.record hcompatible

/-! ### Reading the journal back -/

theorem checkPrevious_eq_ok {line : String} {receipt : IntentReceipt}
    {previous : Option IntentReceipt} :
    checkPrevious line receipt previous = .ok () ↔ ∀ old, previous = some old →
      sameCommand old receipt = true ∧
        validAckProgression old.ackStatus receipt.ackStatus = true := by
  cases previous with
  | none => simp [checkPrevious]
  | some old =>
    simp only [checkPrevious, throw_bind, check_eq_ok, pure_eq_ok, not_not, Option.some.injEq,
      forall_eq', and_true]

/-- A receipt is read back when it is well formed, compatible, and continues an earlier one. -/
theorem absorb_eq_ok {lineNo : ℕ} {receipt : IntentReceipt} {next : JournalState} :
    state.absorb lineNo receipt = .ok next ↔
      Wellformed receipt ∧
      (∀ id, state.sequenceOwners.lookup (receipt.producerId, receipt.sequence) = some id →
        id = receipt.intentId) ∧
      (∀ old, state.receipts.lookup receipt.intentId = some old →
        sameCommand old receipt = true ∧
          validAckProgression old.ackStatus receipt.ackStatus = true) ∧
      state.record receipt = next := by
  unfold absorb Wellformed
  simp only [throw_bind, check_eq_ok, bind_eq_ok, pure_eq_ok, exists_and_right,
    exists_unit_eq_ok, checkPrevious_eq_ok]
  simp [ Option.isSome_iff_ne_none, Option.any_eq_true, and_assoc]

end JournalState

end Bongus.Ipc
