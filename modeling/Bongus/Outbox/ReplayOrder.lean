import Bongus.Lib.Runs
import Bongus.Ipc.IntentJournal
import Bongus.Outbox.CommandOutbox

/-!
# Replays in sequence

One producer with its outbox, a channel that keeps the order of what is sent, and the journal at
its other end. The sequence of a command is taken when it is reserved, but the journal only admits
sequences above the highest it has seen. A command whose first send fails, or that a replay leaves
out, is overtaken by the next one, and its own replay is then refused
(`overtaken_command_refused`).

The journal answers every command as it should, new at first and as a replay from then on, exactly
if commands arrive for the first time in the order of their sequences
(`answers_expected_iff_inOrder`).
-/

set_option autoImplicit false
set_option relaxedAutoImplicit false

namespace Bongus.Outbox

open Ipc Lib.HashMap Lib.Records Lib.Runs

/-- The outbox, the envelopes on their way, the journal, and its answers to the envelopes that
arrived. -/
structure Link where
  outbox : CommandOutbox := {}
  inFlight : List Record := []
  journal : JournalState := .empty
  answers : List (Record × Except String ReceiptDecision) := []

namespace Link

inductive Event where
  | send (payload : Record) (ttlMs createdAtMs : ℤ) (failure : Option String)
  | replay (nowMs : ℤ) (allowRiskIncrease : Bool) (socket : String → Option String)
  | acknowledge (event : Record)
  | deliver (checkedAtMs nowMs : ℤ) (append : JournalState.Append)
  | transition (intentId ackStatus reason : String) (nowMs : ℤ) (append : JournalState.Append)

variable (python : Python) (crates : Crates) (producerId : String)

/-- A send that the outbox refuses, and an acknowledgement that it does not take, change nothing.
A command that fails the protocol check is not offered to the journal. -/
def step (link : Link) : Event → Link
  | .send payload ttlMs createdAtMs failure =>
    match link.outbox.reserveExecutionCommand python payload producerId ttlMs createdAtMs with
    | .error _ => link
    | .ok reserved =>
      let outcome := reserved.1.sendEnvelope reserved.2 failure
      { link with
        outbox := outcome.2
        inFlight := if outcome.1 then link.inFlight ++ [reserved.2] else link.inFlight }
  | .replay nowMs allowRiskIncrease socket =>
    let replay := link.outbox.replayPending python nowMs allowRiskIncrease socket
    { link with outbox := replay.outbox, inFlight := link.inFlight ++ replay.transmitted }
  | .acknowledge event =>
    match link.outbox.handleAck python event with
    | .error _ => link
    | .ok outcome => { link with outbox := outcome.2 }
  | .deliver checkedAtMs nowMs append =>
    match link.inFlight with
    | [] => link
    | envelope :: rest =>
      if ((instruction envelope).protocolError crates checkedAtMs).isSome then
        { link with inFlight := rest }
      else
        let outcome := link.journal.receive crates (instruction envelope) nowMs append
        { link with
          inFlight := rest
          journal := outcome.2
          answers := link.answers ++ [(envelope, outcome.1)] }
  | .transition intentId ackStatus reason nowMs append =>
    { link with
      journal := (link.journal.transition intentId ackStatus reason nowMs append).2 }

/-- The envelopes that arrived, in order. -/
def arrived (link : Link) : List Record := link.answers.map Prod.fst

/-- The next envelope to arrive is well formed and not expired. -/
def Passes (link : Link) (checkedAtMs : ℤ) : Bool :=
  link.inFlight.head?.all fun envelope ↦
    ((instruction envelope).protocolError crates checkedAtMs).isNone

/-- An envelope that arrives is well formed and not expired, and the journal can be written. -/
def Checked (link : Link) : Event → Prop
  | .deliver checkedAtMs _ append =>
    link.Passes crates checkedAtMs ∧ ∀ receipt writeClass, append receipt writeClass = .ok ()
  | _ => True

/-- An answer is as it should be: a command is new at first, and a replay from then on. -/
def AsExpected (before : List (Record × Except String ReceiptDecision))
    (entry : Record × Except String ReceiptDecision) : Prop :=
  if entry.1 ∈ before.map Prod.fst then ∃ receipt, entry.2 = .ok (.replay receipt)
  else ∃ receipt, entry.2 = .ok (.new receipt)

def sequenceOf (envelope : Record) : ℕ := (instruction envelope).sequence.getD 0

/-- An envelope arrived before, or its sequence is above all that arrived. -/
def InSequence (before : List Record) (envelope : Record) : Prop :=
  envelope ∈ before ∨ ∀ earlier ∈ before, sequenceOf earlier < sequenceOf envelope

/-! ### The journal holds what arrived -/

/-- The journal holds a receipt of each envelope that arrived, and no other. -/
structure Mirrors (journal : JournalState) (arrived : List Record) : Prop where
  held : ∀ envelope ∈ arrived, ∃ receipt, journal.Holds receipt ∧
    receipt.command = ((instruction envelope).receipt crates 0).command
  source : ∀ receipt, journal.Holds receipt → ∃ envelope ∈ arrived,
    receipt.command = ((instruction envelope).receipt crates 0).command

variable {python crates producerId}

/-- What the outbox says of an envelope and of those that arrived: one producer, positive sequences,
and one envelope for each intent. -/
structure Related (arrived : List Record) (envelope : Record) : Prop where
  producer : ∀ earlier ∈ arrived,
    (instruction earlier).producerId = (instruction envelope).producerId
  intent : ∀ earlier ∈ arrived,
    orEmpty (instruction earlier).intentId = orEmpty (instruction envelope).intentId →
      earlier = envelope
  positive : 0 < sequenceOf envelope

variable {journal : JournalState} {arrived : List Record} {envelope : Record} (nowMs : ℤ)

theorem classify_of_arrived (hmirrors : Mirrors crates journal arrived)
    (harrived : envelope ∈ arrived) :
    ∃ receipt, journal.classify crates (instruction envelope) nowMs = .replay receipt := by
  obtain ⟨receipt, hheld, hcommand⟩ := hmirrors.held envelope harrived
  refine ⟨receipt, ?_⟩
  rw [JournalState.Holds, (IntentReceipt.identity_of_command crates hcommand).1] at hheld
  simp [JournalState.classify, hheld, IntentReceipt.matches_of_command crates hcommand]

/-- The intent of an envelope that did not arrive yet is unknown to the journal. -/
theorem lookup_of_not_arrived (hmirrors : Mirrors crates journal arrived)
    (hconsistent : journal.Consistent) (hrelated : Related arrived envelope)
    (hfresh : envelope ∉ arrived) :
    journal.receipts.lookup (orEmpty (instruction envelope).intentId) = none := by
  rw [Option.eq_none_iff_forall_ne_some]
  intro receipt hlookup
  have hid := hconsistent.keyed hlookup
  have hheld : journal.Holds receipt := by rwa [JournalState.Holds, hid]
  obtain ⟨earlier, hearlier, hcommand⟩ := hmirrors.source receipt hheld
  have hsame := hrelated.intent earlier hearlier
    ((IntentReceipt.identity_of_command crates hcommand).1.symm.trans hid)
  exact hfresh (hsame ▸ hearlier)

/-- A sequence that the journal knows of the producer is one of an envelope that arrived. -/
theorem exists_arrived_of_holds (hmirrors : Mirrors crates journal arrived)
    {receipt : IntentReceipt} (hheld : journal.Holds receipt) :
    ∃ earlier ∈ arrived, sequenceOf earlier = receipt.sequence := by
  obtain ⟨earlier, hearlier, hcommand⟩ := hmirrors.source receipt hheld
  exact ⟨earlier, hearlier, (IntentReceipt.identity_of_command crates hcommand).2.2.symm⟩

theorem classify_of_above (hmirrors : Mirrors crates journal arrived)
    (hconsistent : journal.Consistent) (hrelated : Related arrived envelope)
    (hfresh : envelope ∉ arrived)
    (habove : ∀ earlier ∈ arrived, sequenceOf earlier < sequenceOf envelope) :
    journal.classify crates (instruction envelope) nowMs =
      .new ((instruction envelope).receipt crates nowMs) := by
  have howner : journal.sequenceOwners.lookup
      (orEmpty (instruction envelope).producerId, (instruction envelope).sequence.getD 0) =
        none := by
    rw [Option.eq_none_iff_forall_ne_some]
    intro id howned
    obtain ⟨receipt, hheld, -, hsequence, -⟩ := hconsistent.owned.mp howned
    obtain ⟨earlier, hearlier, hearlierSequence⟩ := exists_arrived_of_holds hmirrors hheld
    have hlt := habove earlier hearlier
    rw [hearlierSequence, hsequence] at hlt
    exact lt_irrefl _ hlt
  have hlast : ¬ (instruction envelope).sequence.getD 0 ≤
      (journal.lastSequences.lookup (orEmpty (instruction envelope).producerId)).getD 0 := by
    rw [not_le]
    cases hknown : journal.lastSequences.lookup (orEmpty (instruction envelope).producerId) with
    | none => exact hrelated.positive
    | some last =>
      obtain ⟨receipt, hheld, -, rfl⟩ := hconsistent.attained hknown
      obtain ⟨earlier, hearlier, hearlierSequence⟩ := exists_arrived_of_holds hmirrors hheld
      exact hearlierSequence ▸ habove earlier hearlier
  simp [JournalState.classify, lookup_of_not_arrived hmirrors hconsistent hrelated hfresh, howner,
    hlast]

theorem classify_of_overtaken (hmirrors : Mirrors crates journal arrived)
    (hconsistent : journal.Consistent) (hrelated : Related arrived envelope)
    (hfresh : envelope ∉ arrived) {later : Record} (hlater : later ∈ arrived)
    (hovertaken : sequenceOf envelope ≤ sequenceOf later) :
    journal.classify crates (instruction envelope) nowMs = .nonMonotonicSequence := by
  obtain ⟨receipt, hheld, hcommand⟩ := hmirrors.held later hlater
  obtain ⟨-, hproducer, hsequence⟩ := IntentReceipt.identity_of_command crates hcommand
  obtain ⟨last, hlast, hle⟩ := hconsistent.bounded hheld
  rw [hproducer, hrelated.producer later hlater] at hlast
  have hbelow : (instruction envelope).sequence.getD 0 ≤
      (journal.lastSequences.lookup (orEmpty (instruction envelope).producerId)).getD 0 := by
    rw [hlast, Option.getD_some]
    rw [hsequence] at hle
    exact hovertaken.trans hle
  simp [JournalState.classify, lookup_of_not_arrived hmirrors hconsistent hrelated hfresh, hbelow]

/-- Admitting a new envelope extends what the journal mirrors. -/
theorem Mirrors.enroll (hmirrors : Mirrors crates journal arrived)
    (hunknown : journal.receipts.lookup (orEmpty (instruction envelope).intentId) = none) :
    Mirrors crates (journal.enroll ((instruction envelope).receipt crates nowMs))
      (arrived ++ [envelope]) := by
  set receipt := (instruction envelope).receipt crates nowMs with hreceipt
  have hholds : ∀ other, (journal.enroll receipt).Holds other ↔ other = receipt ∨
      (other.intentId ≠ receipt.intentId ∧ journal.Holds other) :=
    fun other ↦ JournalState.holds_insert
  refine ⟨fun seen hseen ↦ ?_, fun other hother ↦ ?_⟩
  · rcases List.mem_append.mp hseen with hold | hlast
    · obtain ⟨old, hheld, hcommand⟩ := hmirrors.held seen hold
      refine ⟨old, (hholds old).mpr (Or.inr ⟨fun hid ↦ ?_, hheld⟩), hcommand⟩
      rw [JournalState.Holds, hid, hreceipt] at hheld
      exact absurd (hunknown.symm.trans hheld) (by simp)
    · rw [List.mem_singleton.mp hlast]
      exact ⟨receipt, (hholds receipt).mpr (Or.inl rfl), rfl⟩
  · rcases (hholds other).mp hother with rfl | ⟨-, hheld⟩
    · exact ⟨envelope, by simp, rfl⟩
    · obtain ⟨earlier, hearlier, hcommand⟩ := hmirrors.source other hheld
      exact ⟨earlier, List.mem_append_left _ hearlier, hcommand⟩

/-- An envelope that arrived before adds nothing. -/
theorem Mirrors.again (hmirrors : Mirrors crates journal arrived) (harrived : envelope ∈ arrived) :
    Mirrors crates journal (arrived ++ [envelope]) := by
  refine ⟨fun seen hseen ↦ ?_, fun receipt hheld ↦ ?_⟩
  · rcases List.mem_append.mp hseen with hold | hlast
    · exact hmirrors.held seen hold
    · exact List.mem_singleton.mp hlast ▸ hmirrors.held envelope harrived
  · obtain ⟨earlier, hearlier, hcommand⟩ := hmirrors.source receipt hheld
    exact ⟨earlier, List.mem_append_left _ hearlier, hcommand⟩

/-- Moving an acknowledgement leaves the commands of the receipts. -/
theorem Mirrors.transition (hmirrors : Mirrors crates journal arrived)
    (hconsistent : journal.Consistent) (intentId ackStatus reason : String) (nowMs : ℤ)
    (append : JournalState.Append) :
    Mirrors crates (journal.transition intentId ackStatus reason nowMs append).2 arrived := by
  rcases JournalState.transition_cases intentId ackStatus reason nowMs append with
    hsame | ⟨receipt, hupdate, -, hstore⟩
  · rwa [hsame]
  · obtain ⟨old, hlookup, rfl, -⟩ := JournalState.progress_update hupdate
    have hid := hconsistent.keyed hlookup
    have hold : journal.Holds old := by rwa [JournalState.Holds, hid]
    set moved := old.acked ackStatus reason nowMs with hmoved
    have hholds : ∀ other, (journal.store moved).Holds other ↔ other = moved ∨
        (other.intentId ≠ moved.intentId ∧ journal.Holds other) :=
      fun other ↦ JournalState.holds_insert
    rw [hstore]
    refine ⟨fun seen hseen ↦ ?_, fun other hother ↦ ?_⟩
    · obtain ⟨found, hheld, hcommand⟩ := hmirrors.held seen hseen
      by_cases hsame : found.intentId = old.intentId
      · rw [JournalState.Holds, hsame] at hheld
        rw [JournalState.Holds, hheld] at hold
        cases hold
        exact ⟨moved, (hholds moved).mpr (Or.inl rfl), hcommand⟩
      · exact ⟨found, (hholds found).mpr (Or.inr ⟨hsame, hheld⟩), hcommand⟩
    · rcases (hholds other).mp hother with rfl | ⟨-, hheld⟩
      · exact hmirrors.source old hold
      · exact hmirrors.source other hheld

/-- While commands arrive in sequence the answers are as expected and the journal mirrors what
arrived. Once a command was overtaken neither holds again. -/
def Answered (crates : Crates) (journal : JournalState)
    (answers : List (Record × Except String ReceiptDecision)) : Prop :=
  (Stepwise InSequence (answers.map Prod.fst) ∧ Stepwise AsExpected answers ∧
      Mirrors crates journal (answers.map Prod.fst)) ∨
    (¬ Stepwise InSequence (answers.map Prod.fst) ∧ ¬ Stepwise AsExpected answers)

theorem Answered.receive {answers : List (Record × Except String ReceiptDecision)}
    (hanswered : Answered crates journal answers) (hconsistent : journal.Consistent)
    (hrelated : Related (answers.map Prod.fst) envelope) {append : JournalState.Append}
    (happend : ∀ receipt writeClass, append receipt writeClass = .ok ())
    {decision : Except String ReceiptDecision} {next : JournalState}
    (hreceive : journal.receive crates (instruction envelope) nowMs append = (decision, next)) :
    Answered crates next (answers ++ [(envelope, decision)]) := by
  have hresult : (journal.receive crates (instruction envelope) nowMs append).1 = _ ∧
      (journal.receive crates (instruction envelope) nowMs append).2 = _ :=
    JournalState.receive_of_append crates (instruction envelope) nowMs happend
  rw [hreceive] at hresult
  obtain ⟨hdecision, hnext⟩ := hresult
  dsimp only at hdecision hnext
  unfold Answered
  rw [List.map_append, List.map_singleton, stepwise_concat, stepwise_concat]
  rcases hanswered with ⟨hinSequence, hexpected, hmirrors⟩ | ⟨hinSequence, hexpected⟩
  · by_cases hbefore : envelope ∈ answers.map Prod.fst
    · obtain ⟨receipt, hreplay⟩ := classify_of_arrived nowMs hmirrors hbefore
      rw [hreplay] at hdecision hnext
      refine Or.inl ⟨⟨hinSequence, Or.inl hbefore⟩, ⟨hexpected, ?_⟩, hnext ▸ hmirrors.again hbefore⟩
      rw [AsExpected, if_pos hbefore]
      exact ⟨receipt, hdecision⟩
    · by_cases habove : ∀ earlier ∈ answers.map Prod.fst,
          sequenceOf earlier < sequenceOf envelope
      · have hunknown := lookup_of_not_arrived hmirrors hconsistent hrelated hbefore
        rw [classify_of_above nowMs hmirrors hconsistent hrelated hbefore habove]
          at hdecision hnext
        refine Or.inl ⟨⟨hinSequence, Or.inr habove⟩, ⟨hexpected, ?_⟩,
          hnext ▸ hmirrors.enroll nowMs hunknown⟩
        rw [AsExpected, if_neg hbefore]
        exact ⟨_, hdecision⟩
      · push Not at habove
        obtain ⟨later, hlater, hovertaken⟩ := habove
        rw [classify_of_overtaken nowMs hmirrors hconsistent hrelated hbefore hlater hovertaken]
          at hdecision
        refine Or.inr ⟨fun h ↦ ?_, fun h ↦ ?_⟩
        · rcases h.2 with harrived | hbelow
          · exact hbefore harrived
          · exact absurd (hbelow later hlater) (not_lt.mpr hovertaken)
        · have hlast := h.2
          rw [AsExpected, if_neg hbefore, hdecision] at hlast
          obtain ⟨receipt, hnew⟩ := hlast
          cases hnew
  · exact Or.inr ⟨fun h ↦ hinSequence h.1, fun h ↦ hexpected h.1⟩

/-! ### Runs -/

/-- What every step keeps. -/
structure Sound (crates : Crates) (producerId : String) (link : Link) : Prop where
  formed : link.outbox.WellFormed
  producer : ∀ row ∈ link.outbox.commands, row.producerId = producerId
  origin : ∀ envelope ∈ link.arrived ++ link.inFlight,
    ∃ row ∈ link.outbox.commands, row.envelope = envelope
  consistent : link.journal.Consistent
  answered : Answered crates link.journal link.answers

variable {link : Link}

/-- The envelope at the head of the channel and those that arrived are of one producer. -/
theorem Sound.related (hsound : Sound crates producerId link)
    (hmember : envelope ∈ link.arrived ++ link.inFlight) : Related link.arrived envelope := by
  obtain ⟨row, hrow, rfl⟩ := hsound.origin envelope hmember
  have hcarries := hsound.formed.carries row hrow
  refine ⟨fun earlier hearlier ↦ ?_, fun earlier hearlier hsame ↦ ?_, ?_⟩
  · obtain ⟨other, hother, rfl⟩ := hsound.origin earlier (List.mem_append_left _ hearlier)
    rw [(hsound.formed.carries other hother).producer, hcarries.producer,
      hsound.producer other hother, hsound.producer row hrow]
  · obtain ⟨other, hother, rfl⟩ := hsound.origin earlier (List.mem_append_left _ hearlier)
    rw [(hsound.formed.carries other hother).intent, hcarries.intent] at hsame
    exact hsound.formed.unique other hother row hrow hsame
  · rw [sequenceOf, hcarries.sequence]
    exact hcarries.positive

/-- A step of the producer: it leaves the journal, and sends envelopes of its rows. -/
theorem Sound.produce (hsound : Sound crates producerId link) {outbox : CommandOutbox}
    {inFlight : List Record} (hformed : outbox.WellFormed)
    (hproducer : ∀ row ∈ outbox.commands, row.producerId = producerId)
    (hkept : ∀ row ∈ link.outbox.commands, row ∈ outbox.commands)
    (hsent : ∀ envelope ∈ inFlight, envelope ∈ link.inFlight ∨
      ∃ row ∈ outbox.commands, row.envelope = envelope) :
    Sound crates producerId { link with outbox := outbox, inFlight := inFlight } := by
  have hold : ∀ envelope ∈ link.arrived ++ link.inFlight,
      ∃ row ∈ outbox.commands, row.envelope = envelope := by
    intro envelope henvelope
    obtain ⟨row, hrow, hcarried⟩ := hsound.origin envelope henvelope
    exact ⟨row, hkept row hrow, hcarried⟩
  refine ⟨hformed, hproducer, fun envelope henvelope ↦ ?_, hsound.consistent, hsound.answered⟩
  rcases List.mem_append.mp henvelope with harrived | hflight
  · exact hold envelope (List.mem_append_left _ harrived)
  · rcases hsent envelope hflight with hbefore | hrow
    · exact hold envelope (List.mem_append_right _ hbefore)
    · exact hrow

theorem Sound.send (hsound : Sound crates producerId link) {payload sent : Record}
    {ttlMs createdAtMs : ℤ} {outbox : CommandOutbox} (failure : Option String)
    (hreserve : link.outbox.reserveExecutionCommand python payload producerId ttlMs createdAtMs =
      .ok (outbox, sent)) :
    Sound crates producerId { link with
      outbox := (outbox.sendEnvelope sent failure).2
      inFlight := if (outbox.sendEnvelope sent failure).1 then link.inFlight ++ [sent]
        else link.inFlight } := by
  have hcommands : (outbox.sendEnvelope sent failure).2.commands = outbox.commands :=
    (CommandOutbox.sending_sendEnvelope sent failure).commands
  have hformed := hsound.formed.reserve hreserve
  have hrows : (∀ row ∈ outbox.commands, row.producerId = producerId) ∧
      (∀ row ∈ link.outbox.commands, row ∈ outbox.commands) ∧
      ∃ row ∈ outbox.commands, row.envelope = sent := by
    rcases CommandOutbox.reserve_cases hreserve with
      ⟨rfl, hrow⟩ | ⟨row, hnext, hcarried, hproducer, -, -⟩
    · exact ⟨hsound.producer, fun row hrow ↦ hrow, hrow⟩
    · rw [hnext]
      refine ⟨fun other hother ↦ ?_, fun other hother ↦ List.mem_append_left _ hother, row,
        by simp, hcarried⟩
      rcases List.mem_append.mp hother with hold | hlast
      · exact hsound.producer other hold
      · rw [List.mem_singleton.mp hlast, hproducer]
  obtain ⟨hproducer, hkept, row, hrow, hcarried⟩ := hrows
  refine hsound.produce (hformed.of_commands hcommands) (hcommands ▸ hproducer)
    (hcommands ▸ hkept) fun envelope henvelope ↦ ?_
  rw [hcommands]
  split_ifs at henvelope
  · rcases List.mem_append.mp henvelope with hbefore | hlast
    · exact Or.inl hbefore
    · exact Or.inr ⟨row, hrow, hcarried.trans (List.mem_singleton.mp hlast).symm⟩
  · exact Or.inl henvelope

/-- An envelope arrives, and the journal can be written. -/
theorem Sound.deliver (hsound : Sound crates producerId link) {rest : List Record}
    (hhead : link.inFlight = envelope :: rest) {append : JournalState.Append}
    (happend : ∀ receipt writeClass, append receipt writeClass = .ok ()) :
    Sound crates producerId { link with
      inFlight := rest
      journal := (link.journal.receive crates (instruction envelope) nowMs append).2
      answers := link.answers ++
        [(envelope, (link.journal.receive crates (instruction envelope) nowMs append).1)] } := by
  have hmember : envelope ∈ link.arrived ++ link.inFlight := by simp [hhead]
  refine ⟨hsound.formed, hsound.producer, fun other hother ↦ hsound.origin other ?_,
    hsound.consistent.receive crates _ _ _,
    hsound.answered.receive nowMs hsound.consistent (hsound.related hmember) happend rfl⟩
  simpa [Link.arrived, hhead] using hother

theorem Sound.transition (hsound : Sound crates producerId link)
    (intentId ackStatus reason : String) (append : JournalState.Append) :
    Sound crates producerId { link with
      journal := (link.journal.transition intentId ackStatus reason nowMs append).2 } := by
  refine ⟨hsound.formed, hsound.producer, hsound.origin,
    hsound.consistent.transition intentId ackStatus reason nowMs append, ?_⟩
  rcases hsound.answered with ⟨hinSequence, hexpected, hmirrors⟩ | hovertaken
  · exact Or.inl ⟨hinSequence, hexpected,
      hmirrors.transition hsound.consistent intentId ackStatus reason nowMs append⟩
  · exact Or.inr hovertaken

theorem Sound.step (event : Event) (hsound : Sound crates producerId link)
    (hchecked : Checked crates link event) :
    Sound crates producerId (link.step python crates producerId event) := by
  cases event with
  | send payload ttlMs createdAtMs failure =>
    dsimp only [Link.step]
    split
    · exact hsound
    · next reserved hreserve => exact hsound.send failure hreserve
  | replay nowMs allowRiskIncrease socket =>
    obtain ⟨hsending, hsource⟩ := CommandOutbox.replayPending_spec
      (rfl : link.outbox.replayPending python nowMs allowRiskIncrease socket = _)
    have hcommands := hsending.commands
    refine hsound.produce (hsound.formed.of_commands hcommands) (hcommands ▸ hsound.producer)
      (fun row hrow ↦ hcommands ▸ hrow) fun envelope henvelope ↦ ?_
    rcases List.mem_append.mp henvelope with hbefore | hsent
    · exact Or.inl hbefore
    · exact Or.inr (hcommands ▸ hsource envelope hsent)
  | acknowledge event =>
    dsimp only [Link.step]
    split
    · exact hsound
    · next outcome hack =>
      have hcommands := (CommandOutbox.handleAck_spec hack).1
      exact hsound.produce (hsound.formed.of_commands hcommands) (hcommands ▸ hsound.producer)
        (fun row hrow ↦ hcommands ▸ hrow) fun envelope henvelope ↦ Or.inl henvelope
  | deliver checkedAtMs nowMs append =>
    dsimp only [Link.step]
    split
    · exact hsound
    · next envelope rest hhead =>
      obtain ⟨hpasses, happend⟩ := hchecked
      rw [Passes, hhead] at hpasses
      rw [if_neg (by simpa using hpasses)]
      exact hsound.deliver nowMs hhead happend
  | transition intentId ackStatus reason nowMs append =>
    exact hsound.transition nowMs intentId ackStatus reason append

theorem sound_empty : Sound crates producerId {} where
  formed := CommandOutbox.wellFormed_empty
  producer := nofun
  origin := nofun
  consistent := JournalState.consistent_empty
  answered := Or.inl ⟨stepwise_nil _, stepwise_nil _, nofun, by
    simp [JournalState.Holds, JournalState.empty]⟩

/-- Over every run of the producer, the channel and the journal, the answers of the journal are as
expected exactly if commands arrive for the first time in the order of their sequences.

Assumes: every envelope that arrives is well formed and not expired, and the journal can be
written. -/
theorem answers_expected_iff_inOrder (producerId : String) {events : List Event}
    (hchecked : Along (step python crates producerId) (Checked crates) {} events) :
    let link := run (step python crates producerId) {} events
    Stepwise AsExpected link.answers ↔ Stepwise InSequence link.arrived := by
  have hsound := invariant_run_of_along (Sound crates producerId) sound_empty
    (fun link event hsound hevent ↦ hsound.step event hevent) hchecked
  rcases hsound.answered with ⟨hinSequence, hexpected, -⟩ | ⟨hinSequence, hexpected⟩
  · exact ⟨fun _ ↦ hinSequence, fun _ ↦ hexpected⟩
  · exact ⟨fun h ↦ absurd h hexpected, fun h ↦ absurd h hinSequence⟩

/-! ### An overtaken command -/

/-- The first of two commands is not sent at once, and the second one arrives before it. -/
def overtaking : List Event :=
  [.send (entryPayload "x") 1000 1000 (some "Resource temporarily unavailable"),
    .send (entryPayload "y") 1000 1000 none, .deliver 1500 1500 JournalState.writable,
    .replay 1500 true fun _ ↦ none, .deliver 1500 1500 JournalState.writable]

/-- Every envelope passes the protocol check, and the replayed one is out of sequence. -/
theorem overtaken_command_refused :
    Along (step samplePython sampleCrates "alpha") (Checked sampleCrates) {} overtaking ∧
      .ok .nonMonotonicSequence ∈
        (run (step samplePython sampleCrates "alpha") {} overtaking).answers.map Prod.snd := by
  have hrun : (run (step samplePython sampleCrates "alpha") {} (overtaking.take 2)).Passes
        sampleCrates 1500 ∧
      (run (step samplePython sampleCrates "alpha") {} (overtaking.take 4)).Passes
        sampleCrates 1500 ∧
      .ok .nonMonotonicSequence ∈
        (run (step samplePython sampleCrates "alpha") {} overtaking).answers.map Prod.snd := by
    decide +kernel
  obtain ⟨hfirst, hsecond, hanswer⟩ := hrun
  exact ⟨⟨trivial, trivial, ⟨hfirst, fun _ _ ↦ rfl⟩, trivial, ⟨hsecond, fun _ _ ↦ rfl⟩, trivial⟩,
    hanswer⟩

/-- A command arrives at once, and again from a replay. -/
def replaying : List Event :=
  [.send (entryPayload "x") 1000 1000 none, .deliver 1500 1500 JournalState.writable,
    .replay 1500 true fun _ ↦ none, .deliver 1500 1500 JournalState.writable]

theorem replayed_command_expected :
    Stepwise AsExpected
      (run (step samplePython sampleCrates "alpha") {} replaying).answers := by
  have hrun : (run (step samplePython sampleCrates "alpha") {} (replaying.take 1)).Passes
        sampleCrates 1500 ∧
      (run (step samplePython sampleCrates "alpha") {} (replaying.take 3)).Passes
        sampleCrates 1500 ∧
      ∃ envelope ∈ (run (step samplePython sampleCrates "alpha") {} replaying).arrived,
        (run (step samplePython sampleCrates "alpha") {} replaying).arrived =
          [envelope, envelope] := by
    decide +kernel
  obtain ⟨hfirst, hsecond, envelope, -, harrived⟩ := hrun
  have hchecked : Along (step samplePython sampleCrates "alpha") (Checked sampleCrates) {}
      replaying :=
    ⟨trivial, ⟨hfirst, fun _ _ ↦ rfl⟩, trivial, ⟨hsecond, fun _ _ ↦ rfl⟩, trivial⟩
  refine (answers_expected_iff_inOrder "alpha" hchecked).mpr ?_
  rw [harrived]
  exact stepwise_concat.mpr ⟨stepwise_concat.mpr ⟨stepwise_nil _, Or.inr nofun⟩,
    Or.inl List.mem_cons_self⟩

end Link

end Bongus.Outbox
