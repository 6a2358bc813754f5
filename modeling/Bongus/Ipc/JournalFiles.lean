import Mathlib.Data.String.Basic
import Bongus.Lib.AtomicReplace
import Bongus.Lib.JsonText
import Bongus.Ipc.IntentJournal

/-!
# The files of the intent journal

`IntentJournal` of `execution_engine/src/ipc.rs` with its files: a log of one receipt per line, the
compacted log that is written beside it, and the log from before a compaction. `append` writes a
receipt within the byte budget of its class and compacts the log where that makes room, `load` reads
the log back. File operations succeed; what can go wrong between them is a crash, and `Crashed` and
`CrashedLoad` say what a crash leaves on the disk. `Reached` are the runs of the journal with
crashes and restarts anywhere.
-/

set_option autoImplicit false
set_option relaxedAutoImplicit false

namespace Bongus.Ipc

open Lib Lib.AtomicReplace Lib.Fallible Lib.HashMap Lib.JsonText Lib.LineLog Lib.Text

/-! ### Lines -/

/-- The fields of a receipt in the order of the struct. -/
def IntentReceipt.fields (receipt : IntentReceipt) : List Field :=
  [("schema_version", .number receipt.schemaVersion),
    ("intent_id", .text receipt.intentId),
    ("producer_id", .text receipt.producerId),
    ("sequence", .number receipt.sequence),
    ("created_at_ms", .number receipt.createdAtMs),
    ("deadline_at_ms", .number receipt.deadlineAtMs),
    ("account_id", .text receipt.accountId),
    ("environment", .text receipt.environment),
    ("strategy_id", .text receipt.strategyId),
    ("cycle_id", .text receipt.cycleId),
    ("config_version_hash", .text receipt.configVersionHash),
    ("spot_leg_id", .text receipt.spotLegId),
    ("perp_leg_id", .text receipt.perpLegId),
    ("spot_client_order_id", .text receipt.spotClientOrderId),
    ("perp_client_order_id", .text receipt.perpClientOrderId),
    ("command_hash", .text receipt.commandHash),
    ("semantic_fingerprint", .text receipt.semanticFingerprint),
    ("ack_status", .text receipt.ackStatus),
    ("reason", .text receipt.reason),
    ("updated_at_ms", .number receipt.updatedAtMs)]

theorem IntentReceipt.fields_injective : Function.Injective IntentReceipt.fields := by
  intro first second h
  cases first
  cases second
  simpa [IntentReceipt.fields] using h

/-- The text of a receipt, as `serde_json` writes it. -/
def IntentReceipt.encode (receipt : IntentReceipt) : Bytes := object receipt.fields

/-- What reads the lines of the journal: `serde_json`, as far as lines that the journal wrote, whole
or cut off, are concerned. -/
abbrev ReceiptParser := LineParser IntentReceipt.encode

noncomputable def exactReceiptParser : ReceiptParser :=
  exactParser IntentReceipt.fields IntentReceipt.fields_injective

def receiptReader : Reader JournalState IntentReceipt where
  absorb lineNo state receipt := state.absorb lineNo receipt
  refusal lineNo err := "invalid intent journal line " ++ toString lineNo ++ ": " ++ err

/-! ### Budgets, appends and compaction -/

structure JournalLimits where
  maxBytes : ℕ
  transitionReserveBytes : ℕ

def defaultLimits : JournalLimits := ⟨80000000, 1024 * 1024⟩

def JournalLimits.writeLimit (limits : JournalLimits) : JournalWriteClass → ℕ
  | .newRisk => limits.maxBytes - limits.transitionReserveBytes
  | .survivalCommand => limits.maxBytes - limits.transitionReserveBytes / 2
  | .transition => limits.maxBytes

/-- The bytes of the log, none where there is no file. -/
def content (files : Files Bytes) : Bytes := files.main.getD []

def fileLen (files : Files Bytes) : ℕ := (content files).length

/-- The latest receipts by producer, sequence and intent. -/
def JournalState.latest (state : JournalState) : List IntentReceipt :=
  sortedValues (fun receipt ↦ toLex (receipt.producerId, receipt.sequence)) state.receipts

def JournalState.compacted (state : JournalState) : Bytes :=
  written IntentReceipt.encode state.latest

def compactLatest (limits : JournalLimits) (state : JournalState) : Except String (Files Bytes) :=
  let projected := (state.latest.map fun receipt ↦ receipt.encode.length + 1).sum
  if projected > limits.maxBytes then
    .error ("latest intent receipts exceed journal byte budget: projected=" ++
      toString projected ++ ", limit=" ++ toString limits.maxBytes)
  else .ok (Files.replaced state.compacted)

/-- Writing at the end of the log, which is created where there is none. -/
def appendBytes (files : Files Bytes) (bytes : Bytes) : Files Bytes :=
  { files with main := some (content files ++ bytes) }

/-- Whether a receipt fits into the log as it is. -/
def overBudget (limits : JournalLimits) (files : Files Bytes) (receipt : IntentReceipt)
    (writeClass : JournalWriteClass) : Bool :=
  limits.writeLimit writeClass < fileLen files + receipt.encode.length + 1

structure IntentJournal where
  files : Files Bytes
  state : JournalState

namespace IntentJournal

variable (limits : JournalLimits) (journal : IntentJournal)

/-- The files that a receipt is appended to: a log without room for it is compacted first. -/
def makeRoom (receipt : IntentReceipt) (writeClass : JournalWriteClass) :
    Except String (Files Bytes) :=
  if overBudget limits journal.files receipt writeClass ∧ 0 < fileLen journal.files then
    compactLatest limits journal.state
  else .ok journal.files

/-- Appending a receipt: what is returned, and the files. -/
def append (receipt : IntentReceipt) (writeClass : JournalWriteClass) :
    Except String Unit × Files Bytes :=
  match journal.makeRoom limits receipt writeClass with
  | .error message => (.error message, journal.files)
  | .ok files =>
    if overBudget limits files receipt writeClass then
      (.error ("intent journal byte budget exceeded: projected=" ++
        toString (fileLen files + receipt.encode.length + 1) ++ ", limit=" ++
        toString (limits.writeLimit writeClass)), files)
    else (.ok (), appendBytes files (receipt.encode ++ [newline]))

/-! ### Calls -/

/-- The calls of a running journal. -/
inductive Call where
  | receive (instruction : AlphaInstruction) (nowMs : ℤ)
  | transition (intentId ackStatus reason : String) (nowMs : ℤ)

variable (crates : Crates)

/-- The receipt that a call appends. -/
def pending : Call → Option (IntentReceipt × JournalWriteClass)
  | .receive instruction nowMs =>
    match journal.state.classify crates instruction nowMs with
    | .new receipt => some (receipt, instruction.writeClass)
    | _ => none
  | .transition intentId ackStatus reason nowMs =>
    match journal.state.progress intentId ackStatus reason nowMs with
    | .update receipt => some (receipt, .transition)
    | _ => none

/-- The files after a call. -/
def filesAfter (call : Call) : Files Bytes :=
  match journal.pending crates call with
  | some (receipt, writeClass) => (journal.append limits receipt writeClass).2
  | none => journal.files

def receive (instruction : AlphaInstruction) (nowMs : ℤ) :
    Except String ReceiptDecision × IntentJournal :=
  let outcome := journal.state.receive crates instruction nowMs
    fun receipt writeClass ↦ (journal.append limits receipt writeClass).1
  (outcome.1, ⟨journal.filesAfter limits crates (.receive instruction nowMs), outcome.2⟩)

def transition (intentId ackStatus reason : String) (nowMs : ℤ) :
    Except String (Option IntentReceipt) × IntentJournal :=
  let outcome := journal.state.transition intentId ackStatus reason nowMs
    fun receipt writeClass ↦ (journal.append limits receipt writeClass).1
  (outcome.1,
    ⟨journal.filesAfter limits crates (.transition intentId ackStatus reason nowMs), outcome.2⟩)

/-- The journal after a call. -/
def perform : Call → IntentJournal
  | .receive instruction nowMs => (journal.receive limits crates instruction nowMs).2
  | .transition intentId ackStatus reason nowMs =>
    (journal.transition limits crates intentId ackStatus reason nowMs).2

/-- A command that passed the protocol check names its intent and its producer. -/
def Call.Identified : Call → Prop
  | .receive instruction _ =>
    isBlank unicodeBlank (orEmpty instruction.intentId) = false ∧
      isBlank unicodeBlank (orEmpty instruction.producerId) = false
  | .transition .. => True

/-! ### Loading -/

variable (parser : ReceiptParser)

/-- A log is compacted at the start when it is too large, or large and mostly outdated. -/
def compactsOnLoad (files : Files Bytes) (state : JournalState) (recordsOnDisk : ℕ) : Bool :=
  limits.maxBytes < fileLen files ||
    (limits.maxBytes / 2 ≤ fileLen files && 2 * state.receipts.keys.card < recordsOnDisk)

/-- The files after the compaction at the start, if there is one. -/
def settleFiles (files : Files Bytes) (state : JournalState) (recordsOnDisk : ℕ) :
    Except String (Files Bytes) :=
  if compactsOnLoad limits files state recordsOnDisk then compactLatest limits state else .ok files

/-- The log as it is read at a start. -/
def readLog (files : Files Bytes) : Except String (JournalState × ℕ) :=
  readLines receiptReader parser 1 (lines (content files.recover)) (JournalState.empty, 0)

def load (files : Files Bytes) : Except String IntentJournal := do
  if limits.maxBytes ≤ limits.transitionReserveBytes then
    throw "intent journal transition reserve must be below its byte cap"
  let (state, recordsOnDisk) ← readLog parser files
  let settled ← settleFiles limits files.recover state recordsOnDisk
  if limits.maxBytes < fileLen settled then
    throw ("intent journal remains above byte budget after compaction: current=" ++
      toString (fileLen settled) ++ ", limit=" ++ toString limits.maxBytes)
  return ⟨settled, state⟩

/-! ### Crashes and runs -/

/-- What a crash inside an append leaves: the files in the middle of a compaction, or the log with
part of the new line. -/
inductive CrashedAppend (receipt : IntentReceipt) (writeClass : JournalWriteClass) :
    Files Bytes → Prop
  | compacting (hover : overBudget limits journal.files receipt writeClass = true)
      (files : Files Bytes) (hcompact : compactLatest limits journal.state = .ok files)
      (stopped : Files Bytes)
      (hstopped : Interrupted journal.files journal.state.compacted stopped) :
      CrashedAppend receipt writeClass stopped
  | writing (files : Files Bytes) (hroom : journal.makeRoom limits receipt writeClass = .ok files)
      (hfits : overBudget limits files receipt writeClass = false) (piece : Bytes) (hpiece : piece <+: receipt.encode ++ [newline]) :
      CrashedAppend receipt writeClass (appendBytes files piece)

/-- What a crash inside a call, before it or after it leaves. -/
inductive Crashed (call : Call) : Files Bytes → Prop
  | before : Crashed call journal.files
  | inside (receipt : IntentReceipt) (writeClass : JournalWriteClass)
      (hpending : journal.pending crates call = some (receipt, writeClass)) (stopped : Files Bytes)
      (hstopped : CrashedAppend limits journal receipt writeClass stopped) : Crashed call stopped
  | after : Crashed call (journal.perform limits crates call).files

/-- What a crash inside a start leaves. -/
inductive CrashedLoad (files : Files Bytes) : Files Bytes → Prop
  | before : CrashedLoad files files
  | recovered : CrashedLoad files files.recover
  | compacting (state : JournalState) (recordsOnDisk : ℕ)
      (hread : readLog parser files = .ok (state, recordsOnDisk))
      (hcompacts : compactsOnLoad limits files.recover state recordsOnDisk = true)
      (stopped : Files Bytes)
      (hstopped : Interrupted files.recover state.compacted stopped) : CrashedLoad files stopped

/-- The journal runs, and knows whether there was a crash; or it is down, and the files are what a
crash left of a call between two states. -/
inductive Phase where
  | running (crashed : Bool) (journal : IntentJournal)
  | down (before after : JournalState) (files : Files Bytes)

/-- The runs of the journal: it starts without files; it performs calls; it is stopped and started
again; it crashes in a call or in a start, and is started again. -/
inductive Reached : Phase → Prop
  | opened (journal : IntentJournal) (hload : load limits parser {} = .ok journal) :
      Reached (.running false journal)
  | performed (crashed : Bool) (journal : IntentJournal) (call : Call)
      (hreached : Reached (.running crashed journal)) (hcall : call.Identified) :
      Reached (.running crashed (journal.perform limits crates call))
  | reopened (crashed : Bool) (journal next : IntentJournal)
      (hreached : Reached (.running crashed journal))
      (hload : load limits parser journal.files = .ok next) : Reached (.running crashed next)
  | crashed (crashed : Bool) (journal : IntentJournal) (call : Call)
      (hreached : Reached (.running crashed journal)) (hcall : call.Identified)
      (stopped : Files Bytes) (hcrashed : Crashed limits journal crates call stopped) :
      Reached (.down journal.state (journal.perform limits crates call).state stopped)
  | crashedReopening (crashed : Bool) (journal : IntentJournal)
      (hreached : Reached (.running crashed journal)) (stopped : Files Bytes)
      (hcrashed : CrashedLoad limits parser journal.files stopped) :
      Reached (.down journal.state journal.state stopped)
  | crashedRecovering (before after : JournalState) (files : Files Bytes)
      (hreached : Reached (.down before after files)) (stopped : Files Bytes)
      (hcrashed : CrashedLoad limits parser files stopped) : Reached (.down before after stopped)
  | recovered (before after : JournalState) (files : Files Bytes)
      (hreached : Reached (.down before after files)) (journal : IntentJournal)
      (hload : load limits parser files = .ok journal) : Reached (.running true journal)

end IntentJournal

end Bongus.Ipc
