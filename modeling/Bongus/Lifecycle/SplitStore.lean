import Bongus.Lib.Runs
import Bongus.Lifecycle.StateStore

/-!
# The split store against the monolithic store

The two writers claim events by the same routine. The monolithic one projects an event only when it
is new, the split one projects it with every delivery, because a crash can have come between its two
commits. So a late second delivery projects an old event over what came after it: an entry that is
delivered again after the exit opens the position again (`entry_reopened`). And a new event whose
projection raises is rolled back by the one and journalled by the other.

`split_agrees_iff` says when the two stay the same in a run of calls: each call is refused before
anything is written, or its projection can be made, and what a known event projects is already
there.
-/

set_option autoImplicit false
set_option relaxedAutoImplicit false

namespace Bongus.Lifecycle

open Lib.Dictionary Lib.Fallible Lib.Runs

variable {Value Cell Time : Type} [DecidableEq Cell]

/-- The state already is what the projection makes of it. -/
def Projection.Reflected (projection : Projection Cell) (state : State Cell) : Prop :=
  (match projection.position with
    | .inl (key, row) => state.positions.lookup key = some row
    | .inr key => state.positions.lookup key = none) ∧
  ∀ tombstone, projection.tombstone = some tombstone →
    ∀ entry ∈ state.pendingIntents, entry.1 = tombstone.target →
      entry.2.tombstoned tombstone = entry.2

omit [DecidableEq Cell] in
theorem State.ext_iff_tables {state other : State Cell} (hcontext : state.context = other.context) :
    state = other ↔
      state.positions = other.positions ∧ state.pendingIntents = other.pendingIntents := by
  obtain ⟨positions, intents, context, keyed⟩ := state
  obtain ⟨positions', intents', context', keyed'⟩ := other
  simp only at hcontext
  subst hcontext
  simp

section Apply

variable (state : State Cell) (projection : Projection Cell)

theorem apply_context : (state.apply projection).context = state.context := by
  obtain ⟨position, tombstone⟩ := projection
  rcases position with ⟨key, row⟩ | key <;> cases tombstone <;> rfl

theorem apply_positions :
    (state.apply projection).positions =
      match projection.position with
      | .inl (key, row) => assign state.positions key row
      | .inr key => state.positions.filter fun entry ↦ entry.1 ≠ key := by
  obtain ⟨position, tombstone⟩ := projection
  rcases position with ⟨key, row⟩ | key <;> cases tombstone <;> rfl

theorem apply_pendingIntents :
    (state.apply projection).pendingIntents =
      match projection.tombstone with
      | none => state.pendingIntents
      | some tombstone => state.pendingIntents.map fun entry ↦
          if entry.1 = tombstone.target then (entry.1, entry.2.tombstoned tombstone)
          else entry := by
  obtain ⟨position, tombstone⟩ := projection
  rcases position with ⟨key, row⟩ | key <;> cases tombstone <;> rfl

theorem filter_ne_eq_self {entries : List (Cell × PositionRow Cell)} {key : Cell} :
    (entries.filter fun entry ↦ entry.1 ≠ key) = entries ↔ entries.lookup key = none := by
  rw [List.filter_eq_self, lookup_eq_none, keys, List.mem_map]
  simp only [decide_eq_true_eq, not_exists, not_and]

theorem map_tombstoned_eq_self {intents : List (String × PendingIntent)} {tombstone : Tombstone} :
    (intents.map fun entry ↦
        if entry.1 = tombstone.target then (entry.1, entry.2.tombstoned tombstone) else entry) =
      intents ↔
    ∀ entry ∈ intents, entry.1 = tombstone.target → entry.2.tombstoned tombstone = entry.2 := by
  conv_lhs => rw [← List.map_id intents, List.map_map]
  rw [List.map_inj_left]
  refine forall_congr' fun entry ↦ forall_congr' fun hentry ↦ ?_
  by_cases htarget : entry.1 = tombstone.target
  · simp [htarget, Prod.ext_iff]
  · simp [htarget]

/-- A projection changes nothing just if it is reflected already. -/
theorem apply_eq_self_iff : state.apply projection = state ↔ projection.Reflected state := by
  rw [State.ext_iff_tables (apply_context state projection), apply_positions, apply_pendingIntents]
  refine and_congr ?_ ?_
  · rcases projection.position with ⟨key, row⟩ | key
    · exact assign_eq_self state.keyed
    · exact filter_ne_eq_self
  · cases projection.tombstone with
    | none => simp
    | some tombstone =>
      rw [map_tombstoned_eq_self]
      simp

end Apply

section Agreement

variable (platform : Platform Value Cell Time)

/-- The call is refused before anything is written, or its projection can be made and is reflected
already if the event is known. -/
def Faithful (store : Store Cell) (call : Call Value) : Prop :=
  (∃ raised, recordEvidence platform store.state.context call store.audit = .error raised) ∨
  ∃ projection, projectionOf platform store.state.context call = .ok projection ∧
    (call.eventKey ∈ keys store.audit.lifecycleEvents → projection.Reflected store.state)

omit [DecidableEq Cell] in
/-- A claim is new just if the journal does not have its key, and then the journal gets it. -/
theorem claimLifecycleEvent_spec {call : Call Value} {events journal : List (String × EventRow)}
    {inserted : Bool}
    (hclaim : claimLifecycleEvent platform call events = .ok (inserted, journal)) :
    (inserted = true ∧ call.eventKey ∉ keys events ∧ call.eventKey ∈ keys journal) ∨
      (inserted = false ∧ call.eventKey ∈ keys events ∧ journal = events) := by
  unfold claimLifecycleEvent at hclaim
  simp only [throw_bind, check_eq_ok, bind_eq_ok] at hclaim
  obtain ⟨-, payloadJson, -, hclaim⟩ := hclaim
  cases hlookup : events.lookup call.eventKey with
  | none =>
    rw [hlookup] at hclaim
    cases hclaim
    exact .inl ⟨rfl, lookup_eq_none.mp hlookup, by simp [keys]⟩
  | some existing =>
    rw [hlookup] at hclaim
    have hknown : call.eventKey ∈ keys events := List.mem_map_of_mem (mem_of_lookup hlookup)
    simp only [check_eq_ok, pure_eq_ok] at hclaim
    obtain ⟨-, hclaim⟩ := hclaim
    cases hclaim
    exact .inr ⟨rfl, hknown, rfl⟩

omit [DecidableEq Cell] in
theorem recordEvidence_spec {context : RuntimeContext} {call : Call Value}
    {audit after : Audit Cell} {inserted : Bool}
    (hrecord : recordEvidence platform context call audit = .ok (inserted, after)) :
    (inserted = true ∧ call.eventKey ∉ keys audit.lifecycleEvents ∧
        call.eventKey ∈ keys after.lifecycleEvents) ∨
      (inserted = false ∧ call.eventKey ∈ keys audit.lifecycleEvents ∧ after = audit) := by
  unfold recordEvidence at hrecord
  simp only [bind_eq_ok] at hrecord
  obtain ⟨-, -, ⟨claimed, events⟩, hclaim, hrecord⟩ := hrecord
  rcases claimLifecycleEvent_spec platform hclaim with ⟨rfl, hnew, hadded⟩ | ⟨rfl, hknown, rfl⟩
  · have hafter : inserted = true ∧ after.lifecycleEvents = events := by
      cases hchange : call.change with
      | exit trade =>
        simp only [hchange, bind_eq_ok, pure_eq_ok] at hrecord
        obtain ⟨row, -, hrecord⟩ := hrecord
        cases hrecord
        exact ⟨rfl, rfl⟩
      | entry fields =>
        simp only [hchange, pure_eq_ok] at hrecord
        cases hrecord
        exact ⟨rfl, rfl⟩
      | partialExit fields =>
        simp only [hchange, pure_eq_ok] at hrecord
        cases hrecord
        exact ⟨rfl, rfl⟩
    exact .inl ⟨hafter.1, hnew, hafter.2 ▸ hadded⟩
  · have hkept : (false, audit) = (inserted, after) := by
      cases hchange : call.change <;> simpa only [hchange, pure_eq_ok] using hrecord
    cases hkept
    exact .inr ⟨rfl, hknown, rfl⟩

/-- One call has the same result and leaves the same store in both. -/
theorem project_eq_iff (store : Store Cell) (call : Call Value) :
    StateWriter.project platform store call = SplitStateWriter.project platform store call ↔
      Faithful platform store call := by
  unfold StateWriter.project SplitStateWriter.project SplitStateWriter.commitAudit
    SplitStateWriter.commitState Faithful
  cases hrecord : recordEvidence platform store.state.context call store.audit with
  | error raised => simp
  | ok recorded =>
    obtain ⟨inserted, audit⟩ := recorded
    rcases recordEvidence_spec platform hrecord with ⟨rfl, hnew, hadded⟩ | ⟨rfl, hknown, rfl⟩
    · cases hprojection : projectionOf platform store.state.context call with
      | error raised =>
        -- The one writer rolls the event back, the other has journalled it.
        have hdiffers : store ≠ { store with audit := audit } := by
          intro hsame
          rw [hsame] at hnew
          exact hnew hadded
        simp [ok_bind, error_bind, pure, Except.pure, hprojection, hdiffers]
      | ok projection => simp [ok_bind, pure, Except.pure, hprojection, hnew]
    · cases hprojection : projectionOf platform store.state.context call with
      | error raised => simp [ok_bind, error_bind, pure, Except.pure, hprojection]
      | ok projection =>
        have hsame : store = { store with state := store.state.apply projection } ↔
            projection.Reflected store.state := by
          rw [← apply_eq_self_iff]
          obtain ⟨audit, state⟩ := store
          simp [eq_comm]
        simp [ok_bind, pure, Except.pure, hprojection, hknown, hsame]

/-- The two stores started from the same contents return the same results and hold the same contents
after every call of a run just if every call of it is faithful. -/
theorem split_agrees_iff (platform : Platform Value Cell Time) (store : Store Cell)
    (calls : List (Call Value)) :
    (∀ before call after, calls = before ++ call :: after →
        StateWriter.deliver platform
            (run (fun store call ↦ (StateWriter.deliver platform store call).2) store before) call =
          SplitStateWriter.deliver platform
            (run (fun store call ↦ (SplitStateWriter.deliver platform store call).2) store before)
            call) ↔
      Along (fun store call ↦ (StateWriter.deliver platform store call).2) (Faithful platform) store
        calls := by
  have hfaithful : (fun store call ↦ StateWriter.deliver platform store call =
      SplitStateWriter.deliver platform store call) = Faithful platform := by
    funext store call
    rw [StateWriter.deliver_eq, SplitStateWriter.deliver_eq, project_eq_iff]
  rw [lockstep_iff_along, hfaithful]

end Agreement

/-! ### An entry that is delivered again -/

/-- Texts as values and cells, without times. -/
def samplePlatform : Platform String String Unit where
  none := "None"
  text := id
  real _ := "0"
  isNone value := value = "None"
  truthy value := value ≠ "" && value ≠ "None"
  str := id
  int _ := .error ("ValueError", "invalid literal")
  upper := id
  lower := id
  decimal _ := some (.finite 1)
  dumps payload := .ok (String.join (payload.flatMap fun part ↦
    part.1 :: part.2.flatMap fun entry ↦ [entry.1, "=", entry.2, ";"]))
  sha256 := id
  fromIsoFormat _ := .ok none
  addDays time _ := .ok time
  isoFormat _ := ""
  cell _ _ value := .ok value
  textCell := id
  missing := String.join

def sampleFields : Mapping String :=
  [("symbol", "BTCUSDT"), ("side", "LONG"), ("spot_entry", "100"), ("perp_entry", "101"),
    ("qty", "2")]

def sampleEntry : Call String where
  eventKey := "entry-1"
  intentId := ""
  eventTime := "2026-01-01T00:00:00Z"
  evidence := []
  change := .entry sampleFields

def sampleTrade : Trade String where
  symbol := "BTCUSDT"
  side := "LONG"
  entryTime := "2026-01-01T00:00:00Z"
  exitTime := "2026-01-02T00:00:00Z"
  entryPrice := "100"
  exitPrice := "102"
  qty := "2"
  netPnlUsd := "4"
  fundingCollected := "0"
  executionCostUsd := "0"
  basisPnlUsd := "0"
  borrowCostUsd := "0"
  estimatedNetPnlUsd := "0"
  estimatedFundingCollected := "0"
  estimatedExecutionCostUsd := "0"
  estimatedBasisPnlUsd := "0"
  estimatedBorrowCostUsd := "0"

def sampleExit : Call String where
  eventKey := "exit-1"
  intentId := ""
  eventTime := "2026-01-02T00:00:00Z"
  evidence := []
  change := .exit sampleTrade

def emptyStore : Store String := ⟨{}, {}⟩

/-- The entry is delivered again after the exit. Both writers say that it is known, and the split
store has an open position again. -/
theorem entry_reopened :
    (run (fun store call ↦ (StateWriter.deliver samplePlatform store call).2) emptyStore
      [sampleEntry, sampleExit, sampleEntry]).state.positions = [] ∧
    keys (run (fun store call ↦ (SplitStateWriter.deliver samplePlatform store call).2) emptyStore
      [sampleEntry, sampleExit, sampleEntry]).state.positions = ["BTCUSDT"] ∧
    keys (run (fun store call ↦ (SplitStateWriter.deliver samplePlatform store call).2) emptyStore
      [sampleEntry, sampleExit]).state.positions = [] ∧
    (SplitStateWriter.deliver samplePlatform
      (run (fun store call ↦ (SplitStateWriter.deliver samplePlatform store call).2) emptyStore
        [sampleEntry, sampleExit]) sampleEntry).1.toOption = some false := by
  decide +kernel

end Bongus.Lifecycle
