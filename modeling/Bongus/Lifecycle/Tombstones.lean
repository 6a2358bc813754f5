import Bongus.Lib.Runs
import Bongus.Lifecycle.SplitStore
import Mathlib.Data.String.Basic

/-!
# Tombstones of pending intents

`upsert_pending_intent`, `tombstone_pending_intent`, `delete_pending_intent` and
`prune_pending_intent_tombstones` of `bongus/engine/state_store.py`, next to the lifecycle
projections. An intent is stored as active, and a tombstone writes a later state over it. The update
of a tombstone merges the watermark and keeps the first deadline, but writes its state whatever the
stored one is, and the pruning goes by the deadline alone.

The watermark never decreases. The states advance from ACTIVE over EXCHANGE_FLAT_AWAITING_TERMINAL
and TERMINAL_RECONCILED to RETAINED_PRUNED just if every call is orderly in the store in which it is
made (`advances_iff_orderly`).

The columns that only the other callers of `upsert_pending_intent` read are left out. A deadline or
a cutoff that comes from the clock has no text of its own, so that a call of the pruning comes with
the texts that the clock gave.
-/

set_option autoImplicit false
set_option relaxedAutoImplicit false

namespace Bongus.Lifecycle

open Lib.Dictionary Lib.Fallible Lib.Runs Lib.Text

inductive LifecycleState where
  | active
  | exchangeFlatAwaitingTerminal
  | terminalReconciled
  | retainedPruned
deriving DecidableEq, Repr

namespace LifecycleState

def name : LifecycleState → String
  | active => "ACTIVE"
  | exchangeFlatAwaitingTerminal => "EXCHANGE_FLAT_AWAITING_TERMINAL"
  | terminalReconciled => "TERMINAL_RECONCILED"
  | retainedPruned => "RETAINED_PRUNED"

def ofName (text : String) : Option LifecycleState :=
  [active, exchangeFlatAwaitingTerminal, terminalReconciled, retainedPruned].find? fun state ↦
    state.name = text

def rank : LifecycleState → ℕ
  | active => 0
  | exchangeFlatAwaitingTerminal => 1
  | terminalReconciled => 2
  | retainedPruned => 3

/-- The second state may follow the first one. -/
def Permits (first second : LifecycleState) : Prop :=
  first.rank ≤ second.rank ∧
    (second = retainedPruned → first = terminalReconciled ∨ first = retainedPruned)

instance (first second : LifecycleState) : Decidable (first.Permits second) := by
  unfold Permits
  infer_instance

theorem permits_self (state : LifecycleState) : state.Permits state := by
  cases state <;> decide

theorem permits_retainedPruned (state : LifecycleState) :
    state.Permits retainedPruned ↔ state = terminalReconciled ∨ state = retainedPruned := by
  cases state <;> decide

theorem name_of_ofName {text : String} {state : LifecycleState} (hname : ofName text = some state) :
    state.name = text := by
  simpa using List.find?_some hname

end LifecycleState

/-! ### The calls -/

/-- The arguments of `tombstone_pending_intent`. -/
structure TombstoneArguments where
  intentId : String
  lifecycleState : String := "TERMINAL_RECONCILED"
  terminalSequence : Option ℤ := none
  reconciliationStatus : String := "TERMINAL_CONFIRMED"
  retentionDeadline : Option String := none
  tombstonedAt : Option String := none
  reason : String := "lifecycle_resolved"

/-- The texts that the clock gave: the cutoff of a pruning, and the deadline of each intent whose
deadline is stamped. -/
structure ClockTexts where
  cutoff : String
  deadline : String → String

section Calls

variable {Value Cell Time : Type} [DecidableEq Cell] (platform : Platform Value Cell Time)

/-- What `tombstone_pending_intent` writes, none for a blank intent. -/
def TombstoneArguments.tombstone (arguments : TombstoneArguments) :
    Except Raised (Option Tombstone) := do
  let target := trim separatorBlank arguments.intentId
  if target = "" then return none
  let normalizedState :=
    platform.upper (trim separatorBlank (firstText arguments.lifecycleState "TERMINAL_RECONCILED"))
  if normalizedState = "ACTIVE" then
    throw ("ValueError", "a tombstone cannot use ACTIVE lifecycle state")
  let normalizedReconciliation := platform.upper
    (trim separatorBlank (firstText arguments.reconciliationStatus "PENDING_TERMINAL"))
  let observed ← parseIso platform (arguments.tombstonedAt.getD "")
  let given ← parseIso platform (arguments.retentionDeadline.getD "")
  let deadline ← match given, observed with
    | some deadline, _ => pure (.written (platform.isoFormat deadline))
    | none, some observed => do
      let deadline ← platform.addDays observed 30
      pure (.written (platform.isoFormat deadline))
    | none, none => pure .clock
  match arguments.terminalSequence with
  | some sequence =>
    if sequence < 0 then throw ("ValueError", "terminal_sequence must be non-negative")
    if 2 ^ 63 ≤ sequence then
      throw ("OverflowError", "Python int too large to convert to SQLite INTEGER")
  | none => pure ()
  return some {
    target := target
    lifecycleState := normalizedState
    sequence := arguments.terminalSequence
    reconciliationStatus := normalizedReconciliation
    retentionDeadline := deadline
    observedAt := match observed with
      | some observed => .written (platform.isoFormat observed)
      | none => .clock
    reason := arguments.reason }

omit [DecidableEq Cell] in
/-- The projections call the same function with the time of their event. -/
theorem tombstone_eq_arguments (intentId : String) (fields : String × String × Option ℤ × String)
    (tombstonedAt : String) :
    tombstone platform intentId fields tombstonedAt =
      TombstoneArguments.tombstone platform
        { intentId := intentId
          lifecycleState := fields.1
          terminalSequence := fields.2.2.1
          reconciliationStatus := fields.2.1
          tombstonedAt := some tombstonedAt
          reason := fields.2.2.2 } := by
  obtain ⟨state, reconciliation, sequence, reason⟩ := fields
  have hmissing : parseIso platform "" = .ok none := if_pos rfl
  unfold tombstone TombstoneArguments.tombstone
  simp only [Option.getD_some, Option.getD_none, hmissing, ok_bind]
  -- The deadline comes from the time of the tombstone, which is the only one that is given.
  split_ifs
  · rfl
  · rfl
  · cases parseIso platform tombstonedAt with
    | error raised => rfl
    | ok observed =>
      cases observed with
      | none => rfl
      | some observed =>
        simp only [ok_bind]
        cases platform.addDays observed 30 <;> rfl

/-- `tombstone_pending_intent`: whether a row was written, and the store. -/
def StateWriter.tombstonePendingIntent (store : Store Cell) (arguments : TombstoneArguments) :
    Except Raised Bool × Store Cell :=
  match arguments.tombstone platform with
  | .error raised => (.error raised, store)
  | .ok none => (.ok false, store)
  | .ok (some tombstone) =>
    (.ok (tombstone.target ∈ keys store.state.pendingIntents),
      { store with state := store.state.tombstonePendingIntent tombstone })

/-- `delete_pending_intent` -/
def StateWriter.deletePendingIntent (store : Store Cell) (intentId : String) :
    Except Raised Bool × Store Cell :=
  StateWriter.tombstonePendingIntent platform store { intentId := intentId }

/-- `upsert_pending_intent`: a new row, or an update that leaves the columns of the lifecycle. -/
def StateWriter.upsertPendingIntent (store : Store Cell) (intentId : String)
    (intent : PendingIntent) : Store Cell :=
  let row := match store.state.pendingIntents.lookup intentId with
    | none => intent
    | some stored => { stored with updatedAt := intent.updatedAt }
  { store with
    state := { store.state with pendingIntents := assign store.state.pendingIntents intentId row } }

/-- The text of a stamped column. -/
def Stamp.text (clockText : String) : Stamp String → String
  | .written text => text
  | .clock => clockText

/-- The condition of the update of the pruning. -/
def PendingIntent.isExpired (intent : PendingIntent) (clockDeadline cutoff : String) : Bool :=
  intent.lifecycleState ≠ "ACTIVE" && intent.lifecycleState ≠ "RETAINED_PRUNED" &&
    intent.retentionDeadline.any fun deadline ↦ deadline.text clockDeadline ≤ cutoff

def PendingIntent.pruned (intent : PendingIntent) (cutoff : Stamp String) : PendingIntent :=
  { intent with
    lifecycleState := "RETAINED_PRUNED"
    reconciliationStatus := "RETENTION_EXPIRED"
    updatedAt := cutoff }

/-- The cutoff of a pruning. -/
def pruneCutoff (now : Option String) : Except Raised (Stamp String) := do
  match ← parseIso platform (now.getD "") with
  | some time => return .written (platform.isoFormat time)
  | none => return .clock

/-- `prune_pending_intent_tombstones`: how many rows were written, and the store. -/
def StateWriter.prunePendingIntentTombstones (store : Store Cell) (now : Option String)
    (clock : ClockTexts) : Except Raised ℕ × Store Cell :=
  match pruneCutoff platform now with
  | .error raised => (.error raised, store)
  | .ok cutoff =>
    let isPruned (intentId : String) (intent : PendingIntent) : Bool :=
      intent.isExpired (clock.deadline intentId) (cutoff.text clock.cutoff)
    (.ok (store.state.pendingIntents.countP fun entry ↦ isPruned entry.1 entry.2),
      { store with
        state := { store.state with
          pendingIntents := store.state.pendingIntents.map fun entry ↦
            (entry.1, if isPruned entry.1 entry.2 then entry.2.pruned cutoff else entry.2) } })

inductive IntentCall (Value : Type) where
  | upsert (intentId : String) (intent : PendingIntent)
  | tombstone (arguments : TombstoneArguments)
  | delete (intentId : String)
  | lifecycle (call : Call Value)
  | prune (now : Option String) (clock : ClockTexts)

/-- The store after a call, which is the one before it if the call raises. -/
def StateWriter.intentStep (store : Store Cell) : IntentCall Value → Store Cell
  | .upsert intentId intent => StateWriter.upsertPendingIntent store intentId intent
  | .tombstone arguments => (StateWriter.tombstonePendingIntent platform store arguments).2
  | .delete intentId => (StateWriter.deletePendingIntent platform store intentId).2
  | .lifecycle call => (StateWriter.deliver platform store call).2
  | .prune now clock => (StateWriter.prunePendingIntentTombstones platform store now clock).2

/-- The tombstone that a call writes in a store. -/
def IntentCall.tombstoneIn (store : Store Cell) : IntentCall Value → Option Tombstone
  | .tombstone arguments => (arguments.tombstone platform).toOption.join
  | .delete intentId =>
    (TombstoneArguments.tombstone platform { intentId := intentId }).toOption.join
  | .lifecycle call =>
    match recordEvidence platform store.state.context call store.audit with
    | .ok (true, _) =>
      (projectionOf platform store.state.context call).toOption.bind Projection.tombstone
    | _ => none
  | _ => none

/-- The call prunes the intent. -/
def IntentCall.prunes (intentId : String) (intent : PendingIntent) : IntentCall Value → Bool
  | .prune now clock => (pruneCutoff platform now).toOption.any fun cutoff ↦
      intent.isExpired (clock.deadline intentId) (cutoff.text clock.cutoff)
  | _ => false

end Calls

/-- The stored row of an intent. -/
def Store.intent {Cell : Type} (store : Store Cell) (intentId : String) : Option PendingIntent :=
  store.state.pendingIntents.lookup intentId

/-! ### The law -/

/-- The state of the second row may follow that of the first one. -/
def Moves (intent later : PendingIntent) : Prop :=
  ∃ stage ∈ LifecycleState.ofName intent.lifecycleState,
    ∃ next ∈ LifecycleState.ofName later.lifecycleState, stage.Permits next

/-- A stored intent stays and its state advances. -/
def Advances (before after : Option PendingIntent) : Prop :=
  ∀ intent ∈ before, ∃ later ∈ after, Moves intent later

/-- A stored watermark stays or is replaced by a later one. -/
def WatermarkKept (before after : Option PendingIntent) : Prop :=
  ∀ intent ∈ before, ∃ later ∈ after, ∀ watermark ∈ intent.terminalSequenceWatermark,
    ∃ replaced ∈ later.terminalSequenceWatermark, watermark ≤ replaced

section Law

variable {Value Cell Time : Type} [DecidableEq Cell] (platform : Platform Value Cell Time)
  (intentId : String)

/-- The intent is first stored as active. -/
def StoresActive (store : Store Cell) : IntentCall Value → Prop
  | .upsert written intent => written = intentId → store.intent intentId = none →
      intent.lifecycleState = LifecycleState.active.name
  | _ => True

instance (store : Store Cell) (call : IntentCall Value) :
    Decidable (StoresActive intentId store call) := by
  cases call with
  | upsert written intent =>
    exact inferInstanceAs (Decidable (written = intentId → store.intent intentId = none →
      intent.lifecycleState = LifecycleState.active.name))
  | _ => exact inferInstanceAs (Decidable True)

/-- The intent is first stored as active, and the tombstones write one of the four states. -/
def UsesStates (store : Store Cell) (call : IntentCall Value) : Prop :=
  StoresActive intentId store call ∧
    ∀ tombstone ∈ call.tombstoneIn platform store, tombstone.target = intentId →
      (LifecycleState.ofName tombstone.lifecycleState).isSome

instance (store : Store Cell) (call : IntentCall Value) :
    Decidable (UsesStates platform intentId store call) := by
  unfold UsesStates
  infer_instance

/-- A tombstone writes a state that may follow the stored one, and the pruning finds only intents
that are reconciled. -/
def Orderly (store : Store Cell) (call : IntentCall Value) : Prop :=
  ∀ intent ∈ store.intent intentId,
    ∀ stage ∈ LifecycleState.ofName intent.lifecycleState,
      (∀ tombstone ∈ call.tombstoneIn platform store, tombstone.target = intentId →
        ∀ next ∈ LifecycleState.ofName tombstone.lifecycleState, stage.Permits next) ∧
      (call.prunes platform intentId intent → stage = .terminalReconciled)

instance (store : Store Cell) (call : IntentCall Value) :
    Decidable (Orderly platform intentId store call) := by
  unfold Orderly
  infer_instance

end Law

/-! ### What a call does to an intent -/

section Effects

variable {Value Cell Time : Type} [DecidableEq Cell] {platform : Platform Value Cell Time}
  {store : Store Cell} {call : IntentCall Value} {intentId : String} {intent : PendingIntent}

/-- What a call can do to the row of an intent. -/
inductive Changed (platform : Platform Value Cell Time) (store : Store Cell)
    (call : IntentCall Value) (intentId : String) (intent : PendingIntent) : PendingIntent → Prop
  | kept (updatedAt : Stamp String)
      (hother : ∀ tombstone ∈ call.tombstoneIn platform store, tombstone.target ≠ intentId)
      (hprunes : call.prunes platform intentId intent = false) :
      Changed platform store call intentId intent { intent with updatedAt := updatedAt }
  | tombstoned (tombstone : Tombstone)
      (htombstone : call.tombstoneIn platform store = some tombstone)
      (htarget : tombstone.target = intentId)
      (hprunes : call.prunes platform intentId intent = false) :
      Changed platform store call intentId intent (intent.tombstoned tombstone)
  | pruned (cutoff : Stamp String) (hnone : call.tombstoneIn platform store = none)
      (hprunes : call.prunes platform intentId intent = true) :
      Changed platform store call intentId intent (intent.pruned cutoff)

omit [DecidableEq Cell] in
theorem lookup_tombstonePendingIntent (state : State Cell) (tombstone : Tombstone)
    (intentId : String) :
    (state.tombstonePendingIntent tombstone).pendingIntents.lookup intentId =
      (state.pendingIntents.lookup intentId).map fun intent ↦
        if intentId = tombstone.target then intent.tombstoned tombstone else intent := by
  have hvalues : (state.tombstonePendingIntent tombstone).pendingIntents =
      state.pendingIntents.map fun entry ↦ (entry.1,
        if entry.1 = tombstone.target then entry.2.tombstoned tombstone else entry.2) := by
    refine List.map_congr_left fun entry _ ↦ ?_
    split_ifs <;> rfl
  rw [hvalues]
  exact lookup_map_values (fun key (intent : PendingIntent) ↦
    if key = tombstone.target then intent.tombstoned tombstone else intent) _ _

omit [DecidableEq Cell] in
/-- A call that writes one tombstone or none. -/
theorem changed_of_tombstone {state : State Cell} (hstored : store.intent intentId = some intent)
    (hprunes : call.prunes platform intentId intent = false)
    (hstate : state.pendingIntents = match call.tombstoneIn platform store with
      | none => store.state.pendingIntents
      | some tombstone => (store.state.tombstonePendingIntent tombstone).pendingIntents) :
    ∃ later, state.pendingIntents.lookup intentId = some later ∧
      Changed platform store call intentId intent later := by
  cases htombstone : call.tombstoneIn platform store with
  | none =>
    rw [htombstone] at hstate
    refine ⟨intent, by rw [hstate]; exact hstored, ?_⟩
    exact .kept intent.updatedAt (by simp [htombstone]) hprunes
  | some tombstone =>
    rw [htombstone] at hstate
    rw [hstate, lookup_tombstonePendingIntent,
      show store.state.pendingIntents.lookup intentId = some intent from hstored, Option.map_some]
    refine ⟨_, rfl, ?_⟩
    split_ifs with htarget
    · exact .tombstoned tombstone htombstone htarget.symm hprunes
    · refine .kept intent.updatedAt ?_ hprunes
      rintro _ hother rfl
      rw [htombstone, Option.mem_some_iff] at hother
      exact htarget (congrArg Tombstone.target hother.symm)

omit [DecidableEq Cell] in
theorem pendingIntents_tombstone (store : Store Cell) (arguments : TombstoneArguments) :
    (StateWriter.tombstonePendingIntent platform store arguments).2.state.pendingIntents =
      match (arguments.tombstone platform).toOption.join with
      | none => store.state.pendingIntents
      | some tombstone => (store.state.tombstonePendingIntent tombstone).pendingIntents := by
  unfold StateWriter.tombstonePendingIntent
  rcases arguments.tombstone platform with raised | (_ | tombstone) <;> rfl

theorem pendingIntents_lifecycle (store : Store Cell) (call : Call Value) :
    (StateWriter.deliver platform store call).2.state.pendingIntents =
      match (IntentCall.lifecycle call).tombstoneIn platform store with
      | none => store.state.pendingIntents
      | some tombstone => (store.state.tombstonePendingIntent tombstone).pendingIntents := by
  rw [StateWriter.deliver_eq, StateWriter.project, IntentCall.tombstoneIn]
  cases recordEvidence platform store.state.context call store.audit with
  | error raised => rfl
  | ok recorded =>
    obtain ⟨inserted, audit⟩ := recorded
    cases inserted with
    | false => rfl
    | true =>
      dsimp only
      cases projectionOf platform store.state.context call with
      | error raised => rfl
      | ok projection =>
        rw [apply_pendingIntents]
        obtain ⟨position, tombstone⟩ := projection
        cases tombstone <;> rfl

omit [DecidableEq Cell] in
theorem intent_prune (platform : Platform Value Cell Time) (store : Store Cell)
    (now : Option String) (clock : ClockTexts) (intentId : String) :
    (StateWriter.prunePendingIntentTombstones platform store now clock).2.intent intentId =
      (store.intent intentId).map fun intent ↦ match pruneCutoff platform now with
        | .error _ => intent
        | .ok cutoff =>
          if intent.isExpired (clock.deadline intentId) (cutoff.text clock.cutoff) then
            intent.pruned cutoff
          else intent := by
  unfold StateWriter.prunePendingIntentTombstones
  cases pruneCutoff platform now with
  | error raised => exact Option.map_id'.symm
  | ok cutoff =>
    exact lookup_map_values (fun key (intent : PendingIntent) ↦
      if intent.isExpired (clock.deadline key) (cutoff.text clock.cutoff) then intent.pruned cutoff
      else intent) _ _

/-- Every call does to a stored intent what `Changed` says. -/
theorem intentStep_changes (platform : Platform Value Cell Time) (call : IntentCall Value)
    (hstored : store.intent intentId = some intent) :
    ∃ later, (StateWriter.intentStep platform store call).intent intentId = some later ∧
      Changed platform store call intentId intent later := by
  cases call with
  | upsert written row =>
    have hkept (updatedAt : Stamp String) : Changed platform store (.upsert written row) intentId
        intent { intent with updatedAt := updatedAt } :=
      .kept updatedAt (by simp [IntentCall.tombstoneIn]) rfl
    have hlookup := lookup_assign store.state.pendingIntents written intentId
    unfold Store.intent at hstored
    by_cases hwritten : intentId = written
    · subst hwritten
      refine ⟨{ intent with updatedAt := row.updatedAt }, ?_, hkept _⟩
      simp [StateWriter.intentStep, StateWriter.upsertPendingIntent, Store.intent, hlookup, hstored]
    · refine ⟨intent, ?_, hkept intent.updatedAt⟩
      simp [StateWriter.intentStep, StateWriter.upsertPendingIntent, Store.intent, hlookup, hstored,
        hwritten]
  | tombstone arguments =>
    rw [StateWriter.intentStep, Store.intent]
    exact changed_of_tombstone hstored rfl (pendingIntents_tombstone store arguments)
  | delete deleted =>
    rw [StateWriter.intentStep, StateWriter.deletePendingIntent, Store.intent]
    exact changed_of_tombstone hstored rfl (pendingIntents_tombstone store _)
  | lifecycle delivered => exact changed_of_tombstone hstored rfl (pendingIntents_lifecycle _ _)
  | prune now clock =>
    have hintent := intent_prune platform store now clock intentId
    rw [hstored, Option.map_some] at hintent
    refine ⟨_, hintent, ?_⟩
    cases hcutoff : pruneCutoff platform now with
    | error raised =>
      refine .kept intent.updatedAt (by simp [IntentCall.tombstoneIn]) ?_
      simp [IntentCall.prunes, hcutoff, Except.toOption]
    | ok cutoff =>
      have hprunes : (IntentCall.prune now clock : IntentCall Value).prunes platform intentId
          intent = intent.isExpired (clock.deadline intentId) (cutoff.text clock.cutoff) := by
        simp [IntentCall.prunes, hcutoff, Except.toOption]
      dsimp only
      split_ifs with hexpired
      · exact .pruned cutoff rfl (hprunes.trans hexpired)
      · refine .kept intent.updatedAt (by simp [IntentCall.tombstoneIn]) ?_
        rw [hprunes, Bool.eq_false_iff]
        exact hexpired

omit [DecidableEq Cell] in
theorem lookup_none_of_tombstone {state : State Cell} {tombstone : Option Tombstone}
    (hnone : store.intent intentId = none)
    (hstate : state.pendingIntents = match tombstone with
      | none => store.state.pendingIntents
      | some tombstone => (store.state.tombstonePendingIntent tombstone).pendingIntents) :
    state.pendingIntents.lookup intentId = none := by
  unfold Store.intent at hnone
  cases tombstone with
  | none => rw [hstate, hnone]
  | some tombstone => rw [hstate, lookup_tombstonePendingIntent, hnone, Option.map_none]

/-- An intent that was not stored is stored by `upsert_pending_intent` only. -/
theorem intentStep_new (hnone : store.intent intentId = none) :
    ∀ later ∈ (StateWriter.intentStep platform store call).intent intentId,
      call = .upsert intentId later := by
  intro later hlater
  cases call with
  | upsert written row =>
    unfold Store.intent at hnone
    have hlookup := lookup_assign store.state.pendingIntents written intentId
    by_cases hwritten : intentId = written
    · subst hwritten
      simp [StateWriter.intentStep, StateWriter.upsertPendingIntent, Store.intent, hlookup, hnone]
        at hlater
      rw [hlater]
    · simp [StateWriter.intentStep, StateWriter.upsertPendingIntent, Store.intent, hlookup, hnone,
        hwritten] at hlater
  | tombstone arguments =>
    rw [StateWriter.intentStep, Store.intent] at hlater
    cases (lookup_none_of_tombstone hnone (pendingIntents_tombstone store arguments)).symm.trans
      hlater
  | delete deleted =>
    rw [StateWriter.intentStep, StateWriter.deletePendingIntent, Store.intent] at hlater
    cases (lookup_none_of_tombstone hnone (pendingIntents_tombstone store _)).symm.trans hlater
  | lifecycle delivered =>
    cases (lookup_none_of_tombstone hnone (pendingIntents_lifecycle _ _)).symm.trans hlater
  | prune now clock =>
    have hintent := intent_prune platform store now clock intentId
    rw [hnone, Option.map_none] at hintent
    cases hintent.symm.trans hlater

/-! ### The law in a step -/

theorem watermarkKept_step (platform : Platform Value Cell Time) (store : Store Cell)
    (call : IntentCall Value) (intentId : String) :
    WatermarkKept (store.intent intentId)
      ((StateWriter.intentStep platform store call).intent intentId) := by
  intro intent hstored
  obtain ⟨later, hlater, hchanged⟩ := intentStep_changes platform call hstored
  refine ⟨later, hlater, fun watermark hwatermark ↦ ?_⟩
  cases hchanged with
  | kept => exact ⟨watermark, hwatermark, le_rfl⟩
  | pruned => exact ⟨watermark, hwatermark, le_rfl⟩
  | tombstoned tombstone =>
    have hsome : intent.terminalSequenceWatermark = some watermark := hwatermark
    cases hsequence : tombstone.sequence with
    | none => exact ⟨watermark, by simp [PendingIntent.tombstoned, hsequence, hsome], le_rfl⟩
    | some sequence =>
      by_cases hless : watermark < sequence
      · exact ⟨sequence, by simp [PendingIntent.tombstoned, hsequence, hsome, hless], hless.le⟩
      · exact ⟨watermark, by simp [PendingIntent.tombstoned, hsequence, hsome, hless], le_rfl⟩

/-- The state of a stored intent is one of the four. -/
def Staged (intentId : String) (store : Store Cell) : Prop :=
  ∀ intent ∈ store.intent intentId, (LifecycleState.ofName intent.lifecycleState).isSome

theorem staged_step (hstaged : Staged intentId store)
    (huses : UsesStates platform intentId store call) :
    Staged intentId (StateWriter.intentStep platform store call) := by
  intro later hlater
  cases hstored : store.intent intentId with
  | none =>
    obtain rfl := intentStep_new hstored later hlater
    rw [show later.lifecycleState = LifecycleState.active.name from huses.1 rfl hstored]
    rfl
  | some intent =>
    obtain ⟨same, hsame, hchanged⟩ := intentStep_changes platform call hstored
    obtain rfl : same = later := Option.some.inj (hsame.symm.trans hlater)
    cases hchanged with
    | kept => exact hstaged intent hstored
    | tombstoned tombstone htombstone htarget => exact huses.2 tombstone htombstone htarget
    | pruned => rfl

omit [DecidableEq Cell] in
theorem ne_pruned_of_prunes (hprunes : call.prunes platform intentId intent = true) :
    intent.lifecycleState ≠ LifecycleState.retainedPruned.name := by
  cases call with
  | prune now clock =>
    obtain ⟨cutoff, -, hexpired⟩ := (Option.any_eq_true _ _).mp hprunes
    simp only [PendingIntent.isExpired, Bool.and_eq_true, decide_eq_true_eq] at hexpired
    exact hexpired.1.2
  | _ => cases hprunes

/-- The state of an intent advances in a call just if the call is orderly. -/
theorem advances_step_iff (hstaged : Staged intentId store)
    (huses : UsesStates platform intentId store call) :
    Advances (store.intent intentId)
        ((StateWriter.intentStep platform store call).intent intentId) ↔
      Orderly platform intentId store call := by
  cases hstored : store.intent intentId with
  | none => simp [Advances, Orderly, hstored]
  | some intent =>
    obtain ⟨stage, hstage⟩ := Option.isSome_iff_exists.mp (hstaged intent hstored)
    obtain ⟨later, hlater, hchanged⟩ := intentStep_changes platform call hstored
    have hadvances : Advances (some intent)
        ((StateWriter.intentStep platform store call).intent intentId) ↔
          ∃ next ∈ LifecycleState.ofName later.lifecycleState, stage.Permits next := by
      simp [Advances, Moves, hlater, hstage]
    have horderly : Orderly platform intentId store call ↔
        (∀ tombstone ∈ call.tombstoneIn platform store, tombstone.target = intentId →
          ∀ next ∈ LifecycleState.ofName tombstone.lifecycleState, stage.Permits next) ∧
        (call.prunes platform intentId intent → stage = .terminalReconciled) := by
      simp [Orderly, hstored, hstage]
    rw [hadvances, horderly]
    cases hchanged with
    | kept updatedAt hother hprunes =>
      refine iff_of_true ⟨stage, hstage, stage.permits_self⟩ ⟨fun tombstone htombstone htarget ↦ ?_,
        fun hpruned ↦ ?_⟩
      · exact absurd htarget (hother tombstone htombstone)
      · rw [hprunes] at hpruned
        cases hpruned
    | tombstoned tombstone htombstone htarget hprunes =>
      obtain ⟨next, hnext⟩ := Option.isSome_iff_exists.mp (huses.2 tombstone htombstone htarget)
      simp [PendingIntent.tombstoned, htombstone, htarget, hprunes, hnext]
    | pruned cutoff hnone hprunes =>
      have hbefore : stage ≠ .retainedPruned := by
        rintro rfl
        exact ne_pruned_of_prunes hprunes (LifecycleState.name_of_ofName hstage).symm
      have hpruned : LifecycleState.ofName (intent.pruned cutoff).lifecycleState =
          some .retainedPruned := rfl
      simp [hpruned, hnone, hprunes, LifecycleState.permits_retainedPruned, hbefore]

/-! ### Runs -/

/-- Whatever is called, the watermark of an intent is kept. Its state advances in every call just if
every call is orderly. -/
theorem advances_iff_orderly (platform : Platform Value Cell Time) {start : Store Cell}
    {intentId : String} (hnew : start.intent intentId = none) {calls : List (IntentCall Value)}
    (huses : Along (StateWriter.intentStep platform) (UsesStates platform intentId) start calls) :
    ((∀ before call after, calls = before ++ call :: after →
        Advances ((run (StateWriter.intentStep platform) start before).intent intentId)
          ((run (StateWriter.intentStep platform) start (before ++ [call])).intent intentId)) ↔
      Along (StateWriter.intentStep platform) (Orderly platform intentId) start calls) ∧
    ∀ before call after, calls = before ++ call :: after →
      WatermarkKept ((run (StateWriter.intentStep platform) start before).intent intentId)
        ((run (StateWriter.intentStep platform) start (before ++ [call])).intent intentId) := by
  constructor
  · rw [along_iff]
    refine forall_congr' fun before ↦ forall_congr' fun call ↦ forall_congr' fun after ↦
      imp_congr_right fun hsplit ↦ ?_
    subst hsplit
    obtain ⟨hbefore, hcall, -⟩ := (along_append start before (call :: after)).mp huses
    have hstaged : Staged intentId (run (StateWriter.intentStep platform) start before) :=
      invariant_run_of_along (Staged intentId) (fun intent hintent ↦ by
        cases hnew.symm.trans hintent) (fun _ _ ↦ staged_step) hbefore
    rw [run_concat]
    exact advances_step_iff hstaged hcall
  · intro before call after _
    rw [run_concat]
    exact watermarkKept_step platform _ call intentId

end Effects

/-! ### A late projection and an early pruning -/

def sampleIntent : PendingIntent where
  updatedAt := .clock

/-- The deadline and the cutoff of the samples. -/
def sampleClock : ClockTexts where
  cutoff := "2026-03-01T00:00:00+00:00"
  deadline _ := "2026-01-31T00:00:00+00:00"

/-- A close that the exchange reports as flat, and a confirmation after it. -/
def reconciledInOrder : List (IntentCall String) :=
  [.upsert "intent-1" sampleIntent,
    .lifecycle { sampleExit with
      intentId := "intent-1"
      evidence := [("execution_type", "RECONCILED_FLAT")] },
    .delete "intent-1",
    .upsert "intent-1" sampleIntent,
    .prune none sampleClock]

theorem advances_reconciled :
    (∀ before call after, reconciledInOrder = before ++ call :: after →
      Advances
        ((run (StateWriter.intentStep samplePlatform) emptyStore before).intent "intent-1")
        ((run (StateWriter.intentStep samplePlatform) emptyStore (before ++ [call])).intent
          "intent-1")) ∧
    ((run (StateWriter.intentStep samplePlatform) emptyStore reconciledInOrder).intent
      "intent-1").map PendingIntent.lifecycleState = some "RETAINED_PRUNED" := by
  refine ⟨?_, by decide +kernel⟩
  exact (advances_iff_orderly samplePlatform (by decide +kernel) (by decide +kernel)).1.mpr
    (by decide +kernel)

/-- The flat position is reported after the intent was reconciled. -/
def reportedLate : List (IntentCall String) :=
  [.upsert "intent-1" sampleIntent,
    .delete "intent-1",
    .lifecycle { sampleExit with
      intentId := "intent-1"
      evidence := [("execution_type", "RECONCILED_FLAT")] }]

/-- The deadline passes before the intent is reconciled. -/
def prunedEarly : List (IntentCall String) :=
  [.upsert "intent-1" sampleIntent,
    .tombstone { intentId := "intent-1", lifecycleState := "EXCHANGE_FLAT_AWAITING_TERMINAL" },
    .prune none sampleClock]

/-- A late projection takes a reconciled intent back to one that awaits its terminal event, and the
pruning takes an intent that awaits it as reconciled. -/
theorem tombstone_taken_back :
    Along (StateWriter.intentStep samplePlatform) (UsesStates samplePlatform "intent-1") emptyStore
        reportedLate ∧
      (reportedLate.inits.map fun calls ↦
        ((run (StateWriter.intentStep samplePlatform) emptyStore calls).intent "intent-1").map
          PendingIntent.lifecycleState) =
        [none, some "ACTIVE", some "TERMINAL_RECONCILED",
          some "EXCHANGE_FLAT_AWAITING_TERMINAL"] ∧
      Along (StateWriter.intentStep samplePlatform) (UsesStates samplePlatform "intent-1")
        emptyStore prunedEarly ∧
      (prunedEarly.inits.map fun calls ↦
        ((run (StateWriter.intentStep samplePlatform) emptyStore calls).intent "intent-1").map
          PendingIntent.lifecycleState) =
        [none, some "ACTIVE", some "EXCHANGE_FLAT_AWAITING_TERMINAL",
          some "RETAINED_PRUNED"] := by
  decide +kernel

end Bongus.Lifecycle
