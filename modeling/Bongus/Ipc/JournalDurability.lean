import Mathlib.Algebra.Order.BigOperators.Group.Multiset
import Bongus.Ipc.JournalFiles

/-!
# What the intent journal rebuilds

A log holds the state of the journal when reading it back gives that state. An append extends the
log by what the state takes up (`pending_absorbed`), and a compaction replaces it by the latest
receipts, which give the same state (`absorbs_latest`) in no more bytes (`compacted_length_le`). So
in every run a start after a crash fails or finds the state before or after the interrupted call, and
without a crash it finds the state (`load_rebuilds`).
-/

set_option autoImplicit false
set_option relaxedAutoImplicit false

namespace Bongus.Ipc

open Lib Lib.AtomicReplace Lib.Fallible Lib.HashMap Lib.JsonText Lib.LineLog Lib.Text

namespace JournalState

/-- The index is right and every receipt can be read back. -/
structure Kept (state : JournalState) : Prop where
  consistent : state.Consistent
  wellformed : ∀ {receipt}, state.Holds receipt → Wellformed receipt

theorem kept_empty : empty.Kept := ⟨consistent_empty, fun h ↦ by simp [Holds, empty] at h⟩

variable {state : JournalState}

theorem Kept.record (hkept : state.Kept) {receipt : IntentReceipt}
    (hcompatible : state.Compatible receipt) (hwellformed : Wellformed receipt) :
    (state.record receipt).Kept := by
  refine ⟨hkept.consistent.record hcompatible, fun {other} hother ↦ ?_⟩
  rcases holds_insert.mp hother with rfl | ⟨-, hheld⟩
  · exact hwellformed
  · exact hkept.wellformed hheld

/-! ### The latest receipts give the state -/

/-- Reading a receipt of the state back, after others of them. -/
theorem Kept.absorb_held {earlier : JournalState} (hkept : state.Kept)
    (hearlier : earlier.Consistent) (hsubset : ∀ other, earlier.Holds other → state.Holds other)
    {receipt : IntentReceipt} (hheld : state.Holds receipt) :
    (∀ lineNo, earlier.absorb lineNo receipt = .ok (earlier.record receipt)) ∧
      (earlier.record receipt).Consistent ∧
      ∀ other, (earlier.record receipt).Holds other ↔ other = receipt ∨ earlier.Holds other := by
  have howner : ∀ id, earlier.sequenceOwners.lookup (receipt.producerId, receipt.sequence) =
      some id → id = receipt.intentId := by
    intro id hid
    obtain ⟨other, hother, hproducer, hsequence, rfl⟩ := hearlier.owned.mp hid
    rw [hkept.consistent.unique (hsubset other hother) hheld hproducer hsequence]
  have hsame : ∀ old, earlier.receipts.lookup receipt.intentId = some old → old = receipt := by
    intro old hold
    have hid := hearlier.keyed hold
    have hheldOld := hsubset old (by rwa [Holds, hid])
    rw [Holds, hid, show state.receipts.lookup receipt.intentId = some receipt from hheld] at hheldOld
    exact (Option.some.inj hheldOld).symm
  have hcompatible : earlier.Compatible receipt :=
    ⟨fun {id} hid ↦ howner id hid, fun {old} hold ↦ by rw [hsame old hold]; exact ⟨rfl, rfl⟩⟩
  refine ⟨fun lineNo ↦ absorb_eq_ok.mpr ⟨hkept.wellformed hheld, howner, fun old hold ↦ ?_, rfl⟩,
    hearlier.record hcompatible, fun other ↦ holds_insert.trans ?_⟩
  · rw [hsame old hold]
    exact ⟨by simp [sameCommand], validAckProgression_self (hkept.wellformed hheld).1⟩
  · constructor
    · rintro (rfl | ⟨-, hother⟩)
      · exact Or.inl rfl
      · exact Or.inr hother
    · rintro (rfl | hother)
      · exact Or.inl rfl
      · by_cases hid : other.intentId = receipt.intentId
        · exact Or.inl (hsame other (hid ▸ hother))
        · exact Or.inr ⟨hid, hother⟩

theorem Kept.absorbs_held {earlier : JournalState} {receipts : List IntentReceipt}
    (hkept : state.Kept) (hearlier : earlier.Consistent)
    (hsubset : ∀ other, earlier.Holds other → state.Holds other)
    (hheld : ∀ receipt ∈ receipts, state.Holds receipt) :
    ∃ final, Absorbs receiptReader earlier receipts final ∧ final.Consistent ∧
      ∀ other, final.Holds other ↔ other ∈ receipts ∨ earlier.Holds other := by
  induction receipts generalizing earlier with
  | nil => exact ⟨earlier, rfl, hearlier, fun other ↦ by simp⟩
  | cons receipt rest ih =>
    obtain ⟨habsorb, hconsistent, hholds⟩ :=
      hkept.absorb_held hearlier hsubset (hheld receipt List.mem_cons_self)
    have hnext : ∀ other, (earlier.record receipt).Holds other → state.Holds other := by
      intro other hother
      rcases (hholds other).mp hother with rfl | hbefore
      · exact hheld _ List.mem_cons_self
      · exact hsubset other hbefore
    obtain ⟨final, habsorbs, hfinal, hfinalHolds⟩ := ih hconsistent hnext
      fun other hother ↦ hheld other (List.mem_cons_of_mem _ hother)
    refine ⟨final, ⟨_, habsorb, habsorbs⟩, hfinal, fun other ↦ ?_⟩
    rw [hfinalHolds, hholds, List.mem_cons]
    tauto

theorem mem_latest (hconsistent : state.Consistent) {receipt : IntentReceipt} :
    receipt ∈ state.latest ↔ state.Holds receipt := by
  rw [latest, mem_sortedValues]
  constructor
  · rintro ⟨key, hkey⟩
    rwa [Holds, hconsistent.keyed hkey]
  · intro hheld
    exact ⟨_, hheld⟩

/-- The latest receipts, read back, give the state. -/
theorem Kept.absorbs_latest (hkept : state.Kept) :
    Absorbs receiptReader empty state.latest state := by
  obtain ⟨final, habsorbs, hfinal, hholds⟩ := hkept.absorbs_held consistent_empty
    (fun other hother ↦ by simp [Holds, empty] at hother)
    fun receipt hreceipt ↦ (mem_latest hkept.consistent).mp hreceipt
  have hreceipts : final.receipts = state.receipts := by
    refine Finmap.ext_lookup fun id ↦ Option.ext fun receipt ↦ ?_
    have hsame : final.Holds receipt ↔ state.Holds receipt := by
      rw [hholds, mem_latest hkept.consistent]
      simp [Holds, empty]
    constructor
    · intro hfound
      have hid := hfinal.keyed hfound
      rw [← hid] at hfound ⊢
      exact hsame.mp hfound
    · intro hfound
      have hid := hkept.consistent.keyed hfound
      rw [← hid] at hfound ⊢
      exact hsame.mpr hfound
  rw [hfinal.ext hkept.consistent hreceipts] at habsorbs
  exact habsorbs

/-- Every receipt that was not there before was read. -/
theorem mem_of_absorbs {earlier : JournalState} {receipts : List IntentReceipt}
    (habsorbs : Absorbs receiptReader earlier receipts state) {receipt : IntentReceipt}
    (hheld : state.Holds receipt) : receipt ∈ receipts ∨ earlier.Holds receipt := by
  induction receipts generalizing earlier with
  | nil =>
    cases habsorbs
    exact Or.inr hheld
  | cons first rest ih =>
    obtain ⟨next, hnext, hrest⟩ := habsorbs
    obtain ⟨-, -, -, rfl⟩ := absorb_eq_ok.mp (hnext 0)
    rcases ih hrest with hmem | hbefore
    · exact Or.inl (List.mem_cons_of_mem _ hmem)
    · rcases holds_insert.mp hbefore with rfl | ⟨-, hearlier⟩
      · exact Or.inl List.mem_cons_self
      · exact Or.inr hearlier

/-- The compacted log is no longer than the log. -/
theorem compacted_length_le (hconsistent : state.Consistent) {receipts : List IntentReceipt}
    (habsorbs : Absorbs receiptReader empty receipts state) :
    state.compacted.length ≤ (written IntentReceipt.encode receipts).length := by
  have hnodup : state.latest.Nodup := nodup_sortedValues fun {key key' value} hkey hkey' ↦
    (hconsistent.keyed hkey).symm.trans (hconsistent.keyed hkey')
  have hsubset : state.latest ⊆ receipts := by
    intro receipt hreceipt
    rcases mem_of_absorbs habsorbs ((mem_latest hconsistent).mp hreceipt) with hmem | hempty
    · exact hmem
    · simp [Holds, empty] at hempty
  rw [compacted, length_written, length_written]
  obtain ⟨part, hperm, hsublist⟩ := hnodup.subperm hsubset
  rw [← (hperm.map _).sum_eq]
  exact (hsublist.map _).sum_le_sum fun _ _ ↦ Nat.zero_le _

end JournalState

namespace IntentJournal

variable {limits : JournalLimits} {journal : IntentJournal} {crates : Crates}
  {parser : ReceiptParser}

/-! ### What a call appends -/

/-- The receipt that a call appends is taken up by the state as it will be read back. -/
theorem pending_absorbed (hkept : journal.state.Kept) {call : Call} (hcall : call.Identified)
    {receipt : IntentReceipt} {writeClass : JournalWriteClass}
    (hpending : journal.pending crates call = some (receipt, writeClass)) :
    (∀ lineNo, journal.state.absorb lineNo receipt = .ok (journal.state.record receipt)) ∧
      (journal.state.record receipt).Kept := by
  have hadmissible : JournalState.Wellformed receipt ∧ journal.state.Compatible receipt ∧
      ∀ old, journal.state.receipts.lookup receipt.intentId = some old →
        sameCommand old receipt = true ∧
          validAckProgression old.ackStatus receipt.ackStatus = true := by
    cases call with
    | receive instruction nowMs =>
      simp only [pending] at hpending
      split at hpending
      · next found hnew =>
        cases hpending
        obtain ⟨rfl, hunknown, -, habove⟩ := JournalState.classify_new crates hnew
        refine ⟨⟨by simp [AlphaInstruction.receipt, ackRank], by omega, hcall.1, hcall.2⟩,
          (JournalState.compatible_of_new crates hnew).1, fun old hold ↦ ?_⟩
        rw [hunknown] at hold
        cases hold
      · cases hpending
    | transition intentId ackStatus reason nowMs =>
      simp only [pending] at hpending
      split at hpending
      · next found hupdate =>
        cases hpending
        obtain ⟨hcompatible, -⟩ := hkept.consistent.compatible_of_update hupdate
        obtain ⟨old, hold, rfl, hrank, hprogression, -⟩ := JournalState.progress_update hupdate
        have hid := hkept.consistent.keyed hold
        have hheld : journal.state.Holds old := by rwa [JournalState.Holds, hid]
        obtain ⟨-, hsequence, hintent, hproducer⟩ := hkept.wellformed hheld
        refine ⟨⟨hrank, hsequence, hintent, hproducer⟩, hcompatible, fun other hother ↦ ?_⟩
        rw [show (old.acked ackStatus reason nowMs).intentId = intentId from hid, hold,
          Option.some.injEq] at hother
        subst hother
        exact ⟨by simp [sameCommand, IntentReceipt.command, IntentReceipt.acked], hprogression⟩
      · cases hpending
  obtain ⟨hwellformed, hcompatible, hprevious⟩ := hadmissible
  exact ⟨fun lineNo ↦ JournalState.absorb_eq_ok.mpr
    ⟨hwellformed, fun id hid ↦ hcompatible.owner hid, hprevious, rfl⟩,
    hkept.record hcompatible hwellformed⟩

theorem receive_new {instruction : AlphaInstruction} {nowMs : ℤ} {receipt : IntentReceipt}
    (hnew : (journal.receive limits crates instruction nowMs).1 = .ok (.new receipt)) :
    journal.state.classify crates instruction nowMs = .new receipt ∧
      (journal.perform limits crates (.receive instruction nowMs)).state =
        journal.state.enroll receipt :=
  JournalState.receive_new crates hnew

theorem perform_of_none {call : Call} (hpending : journal.pending crates call = none) :
    journal.perform limits crates call = journal := by
  cases call with
  | receive instruction nowMs =>
    simp only [perform, receive, filesAfter, hpending]
    simp only [pending] at hpending
    rw [JournalState.receive]
    cases hdecision : journal.state.classify crates instruction nowMs with
    | new receipt =>
      rw [hdecision] at hpending
      cases hpending
    | replay receipt => rfl
    | conflict => rfl
    | nonMonotonicSequence => rfl
  | transition intentId ackStatus reason nowMs =>
    simp only [perform, transition, filesAfter, hpending]
    simp only [pending] at hpending
    rw [JournalState.transition]
    split at hpending
    · cases hpending
    · next hother =>
      split
      · rfl
      · rfl
      · rfl
      · next receipt hupdate => exact absurd hupdate (hother receipt)

/-- A call that appends a receipt leaves what the append leaves, and takes the receipt up when it
succeeds. -/
theorem perform_of_some (hkept : journal.state.Kept) {call : Call} {receipt : IntentReceipt}
    {writeClass : JournalWriteClass}
    (hpending : journal.pending crates call = some (receipt, writeClass)) :
    journal.perform limits crates call =
      ⟨(journal.append limits receipt writeClass).2,
        match (journal.append limits receipt writeClass).1 with
        | .ok () => journal.state.record receipt
        | .error _ => journal.state⟩ := by
  cases call with
  | receive instruction nowMs =>
    simp only [perform, receive, filesAfter, hpending]
    simp only [pending] at hpending
    split at hpending
    · next found hnew =>
      cases hpending
      rw [JournalState.receive, hnew]
      cases happend : (journal.append limits receipt instruction.writeClass).1 with
      | error message => simp only [happend]
      | ok => simp only [happend, (JournalState.compatible_of_new crates hnew).2]
    · cases hpending
  | transition intentId ackStatus reason nowMs =>
    simp only [perform, transition, filesAfter, hpending]
    simp only [pending] at hpending
    split at hpending
    · next found hupdate =>
      cases hpending
      rw [JournalState.transition, hupdate]
      cases happend : (journal.append limits receipt .transition).1 with
      | error message => simp only [happend]
      | ok => simp only [happend, (hkept.consistent.compatible_of_update hupdate).2]
    · cases hpending

/-! ### Running -/

variable (limits parser)

/-- The log holds the state. Without a crash all of its lines are whole and it is within its
budget. -/
structure Sound (crashed : Bool) (journal : IntentJournal) : Prop where
  reserve : limits.transitionReserveBytes < limits.maxBytes
  kept : journal.state.Kept
  settled : journal.files.Settled
  holds : Content receiptReader parser JournalState.empty journal.state (content journal.files)
  clean : crashed = false → fileLen journal.files ≤ limits.maxBytes ∧
    ∃ receipts, Absorbs receiptReader JournalState.empty receipts journal.state ∧
      content journal.files = written IntentReceipt.encode receipts

variable {limits parser}

/-- A compacted log is within the budget and holds the state. -/
theorem compactLatest_eq_ok {state : JournalState} {files : Files Bytes} :
    compactLatest limits state = .ok files ↔
      state.compacted.length ≤ limits.maxBytes ∧ files = Files.replaced state.compacted := by
  unfold compactLatest
  dsimp only
  rw [JournalState.compacted, length_written]
  split_ifs with hover
  · exact ⟨nofun, fun h ↦ absurd h.1 (not_le.mpr hover)⟩
  · rw [Except.ok.injEq]
    exact ⟨fun h ↦ ⟨not_lt.mp hover, h.symm⟩, fun h ↦ h.2.symm⟩

theorem Sound.compacted {crashed : Bool} {files : Files Bytes}
    (hreserve : limits.transitionReserveBytes < limits.maxBytes) {state : JournalState}
    (hkept : state.Kept) (hcompact : compactLatest limits state = .ok files) :
    Sound limits parser crashed ⟨files, state⟩ := by
  obtain ⟨hlength, rfl⟩ := compactLatest_eq_ok.mp hcompact
  exact ⟨hreserve, hkept, settled_replaced _, .whole _ hkept.absorbs_latest,
    fun _ ↦ ⟨hlength, _, hkept.absorbs_latest, rfl⟩⟩

theorem Sound.makeRoom {crashed : Bool} (hsound : Sound limits parser crashed journal)
    {receipt : IntentReceipt} {writeClass : JournalWriteClass} {files : Files Bytes}
    (hroom : journal.makeRoom limits receipt writeClass = .ok files) :
    Sound limits parser crashed ⟨files, journal.state⟩ := by
  unfold IntentJournal.makeRoom at hroom
  split_ifs at hroom with hover
  · exact Sound.compacted hsound.reserve hsound.kept hroom
  · cases hroom
    exact hsound

theorem writeLimit_le (limits : JournalLimits) (writeClass : JournalWriteClass) :
    limits.writeLimit writeClass ≤ limits.maxBytes := by
  cases writeClass <;> simp [JournalLimits.writeLimit]

/-- Writing a whole line that fits keeps the log sound, for the state with its receipt. -/
theorem Sound.appended {crashed : Bool} {files : Files Bytes} {state : JournalState}
    (hsound : Sound limits parser crashed ⟨files, state⟩) {receipt : IntentReceipt}
    {writeClass : JournalWriteClass} (hfits : overBudget limits files receipt writeClass = false)
    (habsorb : ∀ lineNo, state.absorb lineNo receipt = .ok (state.record receipt))
    (hkept : (state.record receipt).Kept) :
    Sound limits parser crashed
      ⟨appendBytes files (receipt.encode ++ [newline]), state.record receipt⟩ := by
  refine ⟨hsound.reserve, hkept, Or.inl rfl, hsound.holds.append habsorb, fun hcrashed ↦ ?_⟩
  obtain ⟨-, receipts, habsorbs, hcontent⟩ := hsound.clean hcrashed
  refine ⟨?_, receipts ++ [receipt], absorbs_concat.mpr ⟨_, habsorbs, habsorb⟩, ?_⟩
  · have hlimit := writeLimit_le limits writeClass
    have hlength := of_decide_eq_false hfits
    simp only [fileLen, content, appendBytes, Option.getD_some, List.length_append,
      List.length_singleton] at hlength ⊢
    omega
  · rw [written_concat, ← hcontent]
    rfl

theorem Sound.perform {crashed : Bool} (hsound : Sound limits parser crashed journal) {call : Call}
    (hcall : call.Identified) :
    Sound limits parser crashed (journal.perform limits crates call) := by
  cases hpending : journal.pending crates call with
  | none => rwa [perform_of_none hpending]
  | some pair =>
    obtain ⟨receipt, writeClass⟩ := pair
    obtain ⟨habsorb, hkept⟩ := pending_absorbed hsound.kept hcall hpending
    rw [perform_of_some hsound.kept hpending]
    unfold IntentJournal.append
    cases hroom : journal.makeRoom limits receipt writeClass with
    | error message => exact hsound
    | ok files =>
      have hfiles := hsound.makeRoom hroom
      dsimp only
      split_ifs with hover
      · exact hfiles
      · exact hfiles.appended (by simpa using hover) habsorb hkept

/-! ### Starting -/

theorem load_eq_ok {files : Files Bytes} :
    load limits parser files = .ok journal ↔
      limits.transitionReserveBytes < limits.maxBytes ∧
      ∃ recordsOnDisk, readLog parser files = .ok (journal.state, recordsOnDisk) ∧
        settleFiles limits files.recover journal.state recordsOnDisk = .ok journal.files ∧
        fileLen journal.files ≤ limits.maxBytes := by
  unfold load
  simp only [throw_bind, check_eq_ok, bind_eq_ok, pure_eq_ok, not_le, not_lt]
  constructor
  · rintro ⟨hreserve, ⟨state, recordsOnDisk⟩, hread, files', hsettle, hlength, rfl⟩
    exact ⟨hreserve, recordsOnDisk, hread, hsettle, hlength⟩
  · rintro ⟨hreserve, recordsOnDisk, hread, hsettle, hlength⟩
    exact ⟨hreserve, ⟨journal.state, recordsOnDisk⟩, hread, journal.files, hsettle, hlength, rfl⟩

/-- A start reads the state that the log holds, or fails. -/
theorem readLog_eq_ok {files : Files Bytes} {state found : JournalState} {recordsOnDisk : ℕ}
    (hholds : Content receiptReader parser JournalState.empty state (content files.recover))
    (hread : readLog parser files = .ok (found, recordsOnDisk)) : found = state := by
  unfold readLog at hread
  rcases hholds.read with ⟨count, hstate⟩ | ⟨message, hmessage⟩
  · rw [hstate] at hread
    cases hread
    rfl
  · rw [hmessage] at hread
    cases hread

/-- A start that succeeds on a log of a state is sound. -/
theorem Sound.of_load {files : Files Bytes} {state : JournalState} (hkept : state.Kept)
    (hholds : Content receiptReader parser JournalState.empty state (content files.recover))
    (hload : load limits parser files = .ok journal) :
    journal.state = state ∧ Sound limits parser true journal := by
  obtain ⟨hreserve, recordsOnDisk, hread, hsettle, hlength⟩ := load_eq_ok.mp hload
  obtain ⟨journalFiles, journalState⟩ := journal
  have hstate : journalState = state := readLog_eq_ok hholds hread
  subst hstate
  refine ⟨rfl, ?_⟩
  unfold settleFiles at hsettle
  split_ifs at hsettle with hcompacts
  · exact Sound.compacted hreserve hkept hsettle
  · cases hsettle
    exact ⟨hreserve, hkept, settled_recover files, hholds, nofun⟩

theorem content_recover {files : Files Bytes} (hsettled : files.Settled) :
    content files.recover = content files := by
  rw [content, recover_main_of_settled hsettled, content]

/-- Without a crash a start succeeds, finds the state, and the log stays as it should be. -/
theorem Sound.load_clean (hsound : Sound limits parser false journal) :
    ∃ next, load limits parser journal.files = .ok next ∧ next.state = journal.state ∧
      Sound limits parser false next := by
  obtain ⟨hlength, receipts, habsorbs, hcontent⟩ := hsound.clean rfl
  have hrecover := content_recover hsound.settled
  have hread : readLog parser journal.files = .ok (journal.state, receipts.length) := by
    rw [readLog, hrecover, hcontent]
    exact readLines_written parser habsorbs
  -- The compacted log is within the budget, since the log is.
  have hcompacted : journal.state.compacted.length ≤ limits.maxBytes := by
    refine (JournalState.compacted_length_le hsound.kept.consistent habsorbs).trans ?_
    rwa [← hcontent]
  by_cases hcompacts : compactsOnLoad limits journal.files.recover journal.state receipts.length
  · have hcompact := compactLatest_eq_ok.mpr ⟨hcompacted, rfl⟩
    refine ⟨⟨Files.replaced journal.state.compacted, journal.state⟩,
      load_eq_ok.mpr ⟨hsound.reserve, _, hread, ?_, hcompacted⟩, rfl,
      Sound.compacted hsound.reserve hsound.kept hcompact⟩
    rw [settleFiles, if_pos hcompacts]
    exact hcompact
  · refine ⟨⟨journal.files.recover, journal.state⟩,
      load_eq_ok.mpr ⟨hsound.reserve, _, hread, ?_, ?_⟩, rfl, hsound.reserve, hsound.kept,
      settled_recover _, ?_, fun _ ↦ ⟨?_, receipts, habsorbs, ?_⟩⟩
    · rw [settleFiles, if_neg hcompacts]
    · rwa [fileLen, hrecover]
    · rw [hrecover]
      exact hsound.holds
    · rwa [fileLen, hrecover]
    · rw [hrecover, hcontent]

/-! ### Crashing -/

variable (parser)

/-- The files that a crash of a call from one state to another left: they hold one of the two, or
cannot be read. -/
structure Torn (before after : JournalState) (files : Files Bytes) : Prop where
  keptBefore : before.Kept
  keptAfter : after.Kept
  holds : Content receiptReader parser JournalState.empty before (content files.recover) ∨
    Content receiptReader parser JournalState.empty after (content files.recover) ∨
    ∃ message, readLog parser files = .error message

variable {parser}

theorem Torn.of_content {before after : JournalState} {files : Files Bytes}
    (hbefore : before.Kept) (hafter : after.Kept) {state : JournalState}
    (hstate : state = before ∨ state = after)
    (hholds : Content receiptReader parser JournalState.empty state (content files.recover)) :
    Torn parser before after files := by
  rcases hstate with rfl | rfl
  · exact ⟨hbefore, hafter, Or.inl hholds⟩
  · exact ⟨hbefore, hafter, Or.inr (Or.inl hholds)⟩

/-- A compaction that is stopped anywhere leaves a log of the state. -/
theorem content_interrupted {files stopped : Files Bytes} {state : JournalState}
    (hkept : state.Kept) (hsettled : files.Settled)
    (hholds : Content receiptReader parser JournalState.empty state (content files))
    (hstopped : Interrupted files state.compacted stopped) :
    Content receiptReader parser JournalState.empty state (content stopped.recover) := by
  unfold content at hholds ⊢
  rcases recover_interrupted hsettled hstopped with hmain | hmain
  · rwa [hmain]
  · rw [hmain]
    exact .whole _ hkept.absorbs_latest

theorem Sound.torn_unchanged {crashed : Bool} (hsound : Sound limits parser crashed journal) :
    Content receiptReader parser JournalState.empty journal.state
      (content journal.files.recover) := by
  rw [content_recover hsound.settled]
  exact hsound.holds

/-- A crash in a call. -/
theorem Sound.crashed {crashed : Bool} (hsound : Sound limits parser crashed journal)
    {call : Call} (hcall : call.Identified) {stopped : Files Bytes}
    (hcrashed : Crashed limits journal crates call stopped) :
    Torn parser journal.state (journal.perform limits crates call).state stopped := by
  have hafter : Sound limits parser crashed (journal.perform limits crates call) :=
    hsound.perform hcall
  cases hcrashed with
  | before => exact .of_content hsound.kept hafter.kept (Or.inl rfl) hsound.torn_unchanged
  | after => exact .of_content hsound.kept hafter.kept (Or.inr rfl) hafter.torn_unchanged
  | inside receipt writeClass hpending _ hstopped =>
    cases hstopped with
    | compacting hover files hcompact _ hstopped =>
      exact .of_content hsound.kept hafter.kept (Or.inl rfl)
        (content_interrupted hsound.kept hsound.settled hsound.holds hstopped)
    | writing files hroom hfits piece hpiece =>
      obtain ⟨habsorb, hkept⟩ := pending_absorbed hsound.kept hcall hpending
      have hfiles := hsound.makeRoom hroom
      have hstate : (journal.perform limits crates call).state = journal.state.record receipt := by
        rw [perform_of_some hsound.kept hpending]
        simp [IntentJournal.append, hroom, hfits]
      have hrecover : content (appendBytes files piece).recover = content files ++ piece :=
        content_recover (Or.inl rfl)
      refine ⟨hsound.kept, hafter.kept, ?_⟩
      rw [readLog, hrecover, hstate]
      exact hfiles.holds.torn habsorb hpiece

/-- A crash in a start leaves the log of the state that the start read, or the log it had. -/
theorem content_crashedLoad {files stopped : Files Bytes} {state : JournalState}
    (hkept : state.Kept)
    (hholds : Content receiptReader parser JournalState.empty state (content files.recover))
    (hcrashed : CrashedLoad limits parser files stopped) :
    Content receiptReader parser JournalState.empty state (content stopped.recover) := by
  cases hcrashed with
  | before => exact hholds
  | recovered =>
    rw [content_recover (settled_recover files)]
    exact hholds
  | compacting found recordsOnDisk hread hcompacts _ hstopped =>
    rw [readLog_eq_ok hholds hread] at hstopped
    exact content_interrupted hkept (settled_recover files) hholds hstopped

theorem Torn.crashedLoad {before after : JournalState} {files stopped : Files Bytes}
    (htorn : Torn parser before after files)
    (hcrashed : CrashedLoad limits parser files stopped) : Torn parser before after stopped := by
  refine ⟨htorn.keptBefore, htorn.keptAfter, ?_⟩
  rcases htorn.holds with hbefore | hafter | ⟨message, hmessage⟩
  · exact Or.inl (content_crashedLoad htorn.keptBefore hbefore hcrashed)
  · exact Or.inr (Or.inl (content_crashedLoad htorn.keptAfter hafter hcrashed))
  · refine Or.inr (Or.inr ⟨message, ?_⟩)
    cases hcrashed with
    | before => exact hmessage
    | recovered =>
      rw [readLog, content_recover (settled_recover files)]
      exact hmessage
    | compacting found recordsOnDisk hread =>
      rw [hmessage] at hread
      cases hread

/-- A start on what a crash left fails, or finds the state before or after the call. -/
theorem Torn.load {before after : JournalState} {files : Files Bytes}
    (htorn : Torn parser before after files) (hload : load limits parser files = .ok journal) :
    (journal.state = before ∨ journal.state = after) ∧ Sound limits parser true journal := by
  rcases htorn.holds with hbefore | hafter | ⟨message, hmessage⟩
  · obtain ⟨hstate, hsound⟩ := Sound.of_load htorn.keptBefore hbefore hload
    exact ⟨Or.inl hstate, hsound⟩
  · obtain ⟨hstate, hsound⟩ := Sound.of_load htorn.keptAfter hafter hload
    exact ⟨Or.inr hstate, hsound⟩
  · obtain ⟨-, recordsOnDisk, hread, -⟩ := load_eq_ok.mp hload
    rw [hmessage] at hread
    cases hread

/-! ### Runs -/

variable (limits parser)

/-- What holds in a phase of a run. -/
def Phase.Sound : Phase → Prop
  | .running crashed journal => IntentJournal.Sound limits parser crashed journal
  | .down before after files => Torn parser before after files

variable {limits parser}

theorem sound_opened (hload : load limits parser {} = .ok journal) :
    Sound limits parser false journal := by
  obtain ⟨hreserve, -⟩ := load_eq_ok.mp hload
  have hempty : Sound limits parser false ⟨{}, JournalState.empty⟩ :=
    ⟨hreserve, JournalState.kept_empty, Or.inr rfl, .whole [] rfl,
      fun _ ↦ ⟨Nat.zero_le _, [], rfl, rfl⟩⟩
  obtain ⟨next, hnext, -, hsound⟩ := hempty.load_clean
  rw [hload] at hnext
  cases hnext
  exact hsound

theorem Sound.reopened {crashed : Bool} {next : IntentJournal}
    (hsound : Sound limits parser crashed journal)
    (hload : load limits parser journal.files = .ok next) :
    Sound limits parser crashed next := by
  cases crashed with
  | false =>
    obtain ⟨found, hfound, -, hnext⟩ := hsound.load_clean
    rw [hload] at hfound
    cases hfound
    exact hnext
  | true => exact (Sound.of_load hsound.kept hsound.torn_unchanged hload).2

/-- Every phase of every run is sound. -/
theorem sound_of_reached {phase : Phase} (hreached : Reached limits crates parser phase) :
    phase.Sound limits parser := by
  induction hreached with
  | opened journal hload => exact sound_opened hload
  | performed crashed journal call hreached hcall ih => exact Sound.perform ih hcall
  | reopened crashed journal next hreached hload ih => exact Sound.reopened ih hload
  | crashed crashed journal call hreached hcall stopped hcrashed ih =>
    exact Sound.crashed ih hcall hcrashed
  | crashedReopening crashed journal hreached stopped hcrashed ih =>
    have hsound : IntentJournal.Sound limits parser crashed journal := ih
    exact .of_content hsound.kept hsound.kept (Or.inl rfl)
      (content_crashedLoad hsound.kept hsound.torn_unchanged hcrashed)
  | crashedRecovering before after files hreached stopped hcrashed ih =>
    exact Torn.crashedLoad ih hcrashed
  | recovered before after files hreached journal hload ih => exact (Torn.load ih hload).2

/-- In every run, with crashes anywhere inside the calls and the starts: a start on what a crash
left fails or rebuilds the receipts, the last sequences and the sequence owners from just before or
just after the interrupted call; and without a crash a start succeeds and rebuilds all three. -/
theorem load_rebuilds (limits : JournalLimits) (crates : Crates) (parser : ReceiptParser) :
    (∀ before after files, Reached limits crates parser (.down before after files) →
      (∃ message, load limits parser files = .error message) ∨
        ∃ journal, load limits parser files = .ok journal ∧
          (journal.state = before ∨ journal.state = after)) ∧
    (∀ journal, Reached limits crates parser (.running false journal) →
      ∃ next, load limits parser journal.files = .ok next ∧ next.state = journal.state) := by
  refine ⟨fun before after files hreached ↦ ?_, fun journal hreached ↦ ?_⟩
  · have htorn : Torn parser before after files := sound_of_reached hreached
    cases hload : load limits parser files with
    | error message => exact Or.inl ⟨message, rfl⟩
    | ok journal => exact Or.inr ⟨journal, rfl, (htorn.load hload).1⟩
  · have hsound : Sound limits parser false journal := sound_of_reached hreached
    obtain ⟨next, hnext, hstate, -⟩ := hsound.load_clean
    exact ⟨next, hnext, hstate⟩

/-- A journal with one command, and one that crashed after the first byte of its receipt. -/
theorem first_command_rebuilds :
    let crates := Crates.ascii (fun _ ↦ "") (fun _ ↦ none) (fun _ ↦ "")
    let opened : IntentJournal := ⟨{}, JournalState.empty⟩
    let command : AlphaInstruction :=
      { intent := "ENTER_LONG"
        intentId := some "intent-1"
        producerId := some "alpha"
        sequence := some 1 }
    let call := Call.receive command 0
    let journal := opened.perform defaultLimits crates call
    (∃ next, load defaultLimits exactReceiptParser journal.files = .ok next ∧
      next.state = journal.state) ∧
    ((∃ message, load defaultLimits exactReceiptParser { main := some [123] } = .error message) ∨
      ∃ next, load defaultLimits exactReceiptParser { main := some [123] } = .ok next ∧
        (next.state = opened.state ∨ next.state = journal.state)) := by
  intro crates opened command call journal
  have hopened : Reached defaultLimits crates exactReceiptParser (.running false opened) :=
    .opened opened (load_eq_ok.mpr ⟨by decide, 0, rfl, rfl, Nat.zero_le _⟩)
  have hcall : call.Identified := ⟨by decide, by decide⟩
  have hpending : opened.pending crates call = some (command.receipt crates 0, .newRisk) := by
    decide +kernel
  have hfits : overBudget defaultLimits {} (command.receipt crates 0) .newRisk = false := by
    decide +kernel
  have hroom : opened.makeRoom defaultLimits (command.receipt crates 0) .newRisk = .ok {} := by
    rw [makeRoom, hfits]
    rfl
  have hpiece : [123] <+: (command.receipt crates 0).encode ++ [newline] :=
    List.cons_prefix_cons.mpr ⟨rfl, List.nil_prefix⟩
  exact ⟨(load_rebuilds defaultLimits crates exactReceiptParser).2 _
    (.performed _ _ _ hopened hcall),
    (load_rebuilds defaultLimits crates exactReceiptParser).1 _ _ _
      (.crashed _ _ _ hopened hcall _
        (.inside _ _ hpending _ (.writing {} hroom hfits [123] hpiece)))⟩

end IntentJournal

end Bongus.Ipc
