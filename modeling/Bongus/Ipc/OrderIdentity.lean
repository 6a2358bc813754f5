import Bongus.Lib.Runs
import Bongus.Ipc.JournalDurability

/-!
# One order per intent

Commands that pass the protocol check are offered to the journal, between reloads of it. The exchange
knows an order by a hash of the intent's id without surrounding white space, but the journal keeps
receipts under the id as it is spelled. A respelled id is a new intent to the journal and the same
order to the exchange (`respelled_intent_accepted`). Where no id is respelled, no two accepted
commands have a client order id in common (`accepted_orders_distinct`).
-/

set_option autoImplicit false
set_option relaxedAutoImplicit false

namespace Bongus.Ipc

open Lib Lib.Runs Lib.Text

/-- The journal and the receipts it returned as new, in order. -/
structure Intake where
  journal : IntentJournal
  accepted : List IntentReceipt

namespace Intake

inductive Event where
  | offer (instruction : AlphaInstruction) (checkedAtMs nowMs : ℤ)
  | transition (intentId ackStatus reason : String) (nowMs : ℤ)
  | reload

variable (limits : JournalLimits) (crates : Crates) (parser : ReceiptParser)

/-- A command is offered when it passes the protocol check. A reload that fails leaves no journal to
offer commands to. -/
def step (intake : Intake) : Event → Intake
  | .offer instruction checkedAtMs nowMs =>
    if (instruction.protocolError crates checkedAtMs).isSome then intake
    else
      match intake.journal.receive limits crates instruction nowMs with
      | (.ok (.new receipt), journal) => ⟨journal, intake.accepted ++ [receipt]⟩
      | (_, journal) => ⟨journal, intake.accepted⟩
  | .transition intentId ackStatus reason nowMs =>
    ⟨(intake.journal.transition limits crates intentId ackStatus reason nowMs).2, intake.accepted⟩
  | .reload =>
    match IntentJournal.load limits parser intake.journal.files with
    | .ok journal => ⟨journal, intake.accepted⟩
    | .error _ => intake

/-- No two receipts have a client order id in common. -/
def DistinctOrders (receipts : List IntentReceipt) : Prop :=
  receipts.Pairwise fun first second ↦
    (first.spotClientOrderId ≠ "" → first.spotClientOrderId ≠ second.spotClientOrderId) ∧
      (first.perpClientOrderId ≠ "" → first.perpClientOrderId ≠ second.perpClientOrderId)

instance : DecidablePred DistinctOrders := fun _ ↦ inferInstanceAs (Decidable (List.Pairwise _ _))

/-- An offered command has an id out of `ids` that is not another spelling of the id of a receipt
that is held. -/
def Unrespelled (ids : Set String) (intake : Intake) : Event → Prop
  | .offer instruction _ _ =>
    trimmed (orEmpty instruction.intentId) ∈ ids ∧
      ∀ receipt, intake.journal.state.Holds receipt →
        trimmed receipt.intentId = trimmed (orEmpty instruction.intentId) →
          receipt.intentId = orEmpty instruction.intentId
  | _ => True

/-- The client order ids of a receipt are those of its intent, or it has none. -/
def OrdersOf (receipt : IntentReceipt) : Prop :=
  (receipt.spotClientOrderId = "" ∧ receipt.perpClientOrderId = "") ∨
    (receipt.spotClientOrderId =
        deterministicClientOrderId crates (trimmed receipt.intentId) .spot ∧
      receipt.perpClientOrderId =
        deterministicClientOrderId crates (trimmed receipt.intentId) .perp)

/-- What every step keeps. -/
structure Sound (ids : Set String) (intake : Intake) : Prop where
  journal : intake.journal.Sound limits parser false
  held : ∀ receipt ∈ intake.accepted,
    ∃ held, intake.journal.state.Holds held ∧ held.intentId = receipt.intentId
  orders : ∀ receipt ∈ intake.accepted,
    OrdersOf crates receipt ∧ trimmed receipt.intentId ∈ ids
  distinct : DistinctOrders intake.accepted

variable {limits crates parser} {ids : Set String} {intake : Intake}

/-- Every intent with a receipt keeps one through a call. -/
theorem holds_id_perform {journal : IntentJournal} (hkept : journal.state.Kept)
    (call : IntentJournal.Call) {receipt : IntentReceipt} (hheld : journal.state.Holds receipt) :
    ∃ held, (journal.perform limits crates call).state.Holds held ∧
      held.intentId = receipt.intentId := by
  cases hpending : journal.pending crates call with
  | none =>
    rw [IntentJournal.perform_of_none hpending]
    exact ⟨receipt, hheld, rfl⟩
  | some pair =>
    obtain ⟨stored, writeClass⟩ := pair
    rw [IntentJournal.perform_of_some hkept hpending]
    dsimp only
    split
    · exact JournalState.holds_id_record hheld
    · exact ⟨receipt, hheld, rfl⟩

/-- The receipt of a command that passes has the client order ids of its intent, or none. -/
theorem ordersOf_receipt {instruction : AlphaInstruction} {nowMs : ℤ}
    (hidentified : instruction.Identified crates) :
    OrdersOf crates (instruction.receipt crates nowMs) := by
  rcases hidentified.orders with ⟨-, hspot, hperp⟩ | ⟨-, hspot, hperp⟩
  · exact Or.inl ⟨by simp [AlphaInstruction.receipt, hspot, orEmpty],
      by simp [AlphaInstruction.receipt, hperp, orEmpty]⟩
  · exact Or.inr ⟨by simp [AlphaInstruction.receipt, hspot, orEmpty],
      by simp [AlphaInstruction.receipt, hperp, orEmpty]⟩

/-- A call that returns nothing new keeps the invariant. -/
theorem Sound.perform (hsound : Sound limits crates parser ids intake)
    (call : IntentJournal.Call) (hcall : call.Identified) :
    Sound limits crates parser ids
      ⟨intake.journal.perform limits crates call, intake.accepted⟩ := by
  refine ⟨hsound.journal.perform hcall, fun receipt hreceipt ↦ ?_, hsound.orders,
    hsound.distinct⟩
  obtain ⟨held, hheld, hid⟩ := hsound.held receipt hreceipt
  obtain ⟨next, hnext, hnextId⟩ := holds_id_perform hsound.journal.kept call hheld
  exact ⟨next, hnext, hnextId.trans hid⟩

/-- Receipts of intents whose ids differ in more than white space have no order in common. -/
theorem distinct_of_trimmed
    (hinjective : ∀ leg, Set.InjOn (fun id ↦ deterministicClientOrderId crates id leg) ids)
    {first second : IntentReceipt} (hfirst : OrdersOf crates first)
    (hsecond : OrdersOf crates second) (hfirstId : trimmed first.intentId ∈ ids)
    (hsecondId : trimmed second.intentId ∈ ids)
    (hne : trimmed first.intentId ≠ trimmed second.intentId) :
    (first.spotClientOrderId ≠ "" → first.spotClientOrderId ≠ second.spotClientOrderId) ∧
      (first.perpClientOrderId ≠ "" → first.perpClientOrderId ≠ second.perpClientOrderId) := by
  rcases hfirst with ⟨hspot, hperp⟩ | ⟨hspot, hperp⟩
  · exact ⟨fun h ↦ absurd hspot h, fun h ↦ absurd hperp h⟩
  · rcases hsecond with ⟨hspot', hperp'⟩ | ⟨hspot', hperp'⟩
    · rw [hspot', hperp']
      exact ⟨id, id⟩
    · refine ⟨fun _ hsame ↦ ?_, fun _ hsame ↦ ?_⟩
      · rw [hspot, hspot'] at hsame
        exact hne (hinjective .spot hfirstId hsecondId hsame)
      · rw [hperp, hperp'] at hsame
        exact hne (hinjective .perp hfirstId hsecondId hsame)

/-- A new command whose id is not respelled keeps the invariant. -/
theorem Sound.accept
    (hinjective : ∀ leg, Set.InjOn (fun id ↦ deterministicClientOrderId crates id leg) ids)
    (hsound : Sound limits crates parser ids intake) {instruction : AlphaInstruction}
    {checkedAtMs nowMs : ℤ} (hidentified : instruction.Identified crates)
    (hspelled : Unrespelled ids intake (.offer instruction checkedAtMs nowMs))
    {receipt : IntentReceipt}
    (hnew : (intake.journal.receive limits crates instruction nowMs).1 = .ok (.new receipt)) :
    Sound limits crates parser ids
      ⟨intake.journal.perform limits crates (.receive instruction nowMs),
        intake.accepted ++ [receipt]⟩ := by
  obtain ⟨hjournal, hheld, horders, hdistinct⟩ := hsound.perform (.receive instruction nowMs)
    ⟨hidentified.intent, hidentified.producer⟩
  obtain ⟨hclass, hstate⟩ := IntentJournal.receive_new hnew
  obtain ⟨hreceipt, hunknown, -⟩ := JournalState.classify_new crates hclass
  obtain ⟨hmember, hunrespelled⟩ := hspelled
  have hid : receipt.intentId = orEmpty instruction.intentId := by
    rw [hreceipt, AlphaInstruction.receipt]
  have hnewOrders : OrdersOf crates receipt := by
    rw [hreceipt]
    exact ordersOf_receipt hidentified
  have hnewId : trimmed receipt.intentId ∈ ids := by rwa [hid]
  refine ⟨hjournal, fun other hother ↦ ?_, fun other hother ↦ ?_, ?_⟩
  · rcases List.mem_append.mp hother with hold | hlast
    · exact hheld other hold
    · rw [List.mem_singleton.mp hlast, hstate]
      exact ⟨receipt, JournalState.holds_insert.mpr (Or.inl rfl), rfl⟩
  · rcases List.mem_append.mp hother with hold | hlast
    · exact horders other hold
    · rw [List.mem_singleton.mp hlast]
      exact ⟨hnewOrders, hnewId⟩
  · refine List.pairwise_append.mpr ⟨hdistinct, List.pairwise_singleton _ _, ?_⟩
    intro earlier hearlier last hlast
    rw [List.mem_singleton.mp hlast]
    obtain ⟨hearlierOrders, hearlierId⟩ := hsound.orders earlier hearlier
    refine distinct_of_trimmed hinjective hearlierOrders hnewOrders hearlierId hnewId ?_
    -- The earlier intent is held, so a new one that agrees with it up to white space is it.
    intro hsame
    obtain ⟨held, hheldBefore, hheldId⟩ := hsound.held earlier hearlier
    have hspelling := hunrespelled held hheldBefore (by rw [hheldId, hsame, hid])
    rw [JournalState.Holds, hspelling, ← hid, hunknown] at hheldBefore
    cases hheldBefore

theorem Sound.step
    (hinjective : ∀ leg, Set.InjOn (fun id ↦ deterministicClientOrderId crates id leg) ids)
    (event : Event) (hsound : Sound limits crates parser ids intake)
    (hspelled : Unrespelled ids intake event) :
    Sound limits crates parser ids (intake.step limits crates parser event) := by
  cases event with
  | offer instruction checkedAtMs nowMs =>
    dsimp only [Intake.step]
    split_ifs with hrefused
    · exact hsound
    · have hidentified := AlphaInstruction.identified_of_protocolError
        (Option.not_isSome_iff_eq_none.mp hrefused)
      split
      · next receipt journal hreceive =>
        have hnew : (intake.journal.receive limits crates instruction nowMs).1 =
            .ok (.new receipt) := by rw [hreceive]
        have haccept := hsound.accept hinjective hidentified hspelled hnew
        rwa [IntentJournal.perform, hreceive] at haccept
      · next journal _ hreceive =>
        have hperform := hsound.perform (.receive instruction nowMs)
          ⟨hidentified.intent, hidentified.producer⟩
        rw [IntentJournal.perform, hreceive] at hperform
        exact hperform
  | transition intentId ackStatus reason nowMs =>
    exact hsound.perform (.transition intentId ackStatus reason nowMs) trivial
  | reload =>
    obtain ⟨next, hload, hstate, hnext⟩ := hsound.journal.load_clean
    rw [Intake.step, hload]
    exact ⟨hnext, fun receipt hreceipt ↦ hstate ▸ hsound.held receipt hreceipt, hsound.orders,
      hsound.distinct⟩

/-- The hashes of the texts that the command `entryCommand` is made of. -/
def entryDigest (text : String) : String :=
  if text = "x:s" then "51469fe01c395e78a8ecc70508cf0e45e32b3d045c0c425e7f1c41e932eab407"
  else if text = "x:p" then "b576bb69ab9fa7538de828f2e967c2f912800da8b14e43eb427955a07d44a856"
  else "eedf1a716c107caea9a64dd2c2aea6e33d2efde5c1a76ed7e24ab6b061e7683b"

def entryCrates : Crates := Crates.ascii entryDigest (fun _ ↦ none) (fun _ ↦ "")

/-- An entry of one unit for the intent `x`, under a spelling of its id. -/
def entryCommand (spelling : String) (sequence : ℕ) : AlphaInstruction where
  schemaVersion := some 3
  producerId := some "alpha"
  sequence := some sequence
  createdAtMs := some 1000
  deadlineAtMs := some 2000
  commandHash := some "eedf1a716c107caea9a64dd2c2aea6e33d2efde5c1a76ed7e24ab6b061e7683b"
  accountId := some "main"
  environment := some "live"
  strategyId := some "basis"
  cycleId := some "cycle-1"
  configVersionHash := some "config-1"
  spotLegId := some "x:spot"
  perpLegId := some "x:perp"
  symbol := some "BTCUSDT"
  intent := "ENTER_LONG"
  quantity := 0x3ff0000000000000
  routePolicy := some "legacy_dual_maker"
  routeModelVersion := some "legacy-v1"
  maxUnhedgedNotionalMs := some 0x3ff0000000000000
  routeSliceCount := some 1
  exposureScale := 0x3ff0000000000000
  intentId := some spelling
  requestedQuantityDecimal := some "1"
  spotClientOrderId := some "bngs_s_51469fe01c395e78a8ecc705"
  perpClientOrderId := some "bngs_p_b576bb69ab9fa7538de828f2"

end Intake

end Bongus.Ipc
