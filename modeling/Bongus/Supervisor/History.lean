import Bongus.Lib.Histories
import Bongus.Supervisor.FreshProof
import Mathlib.Data.String.Basic

/-!
# The history of an incident

`events` of `bongus/supervisor/incidents.py` lists the entries of an incident in the order of their
times and, within one time, of their identifiers, which are random. Both entries of an attempt that
`run_due` makes have the time of the call.

Every transaction adds entries that lead from the state of each incident before it to the one after
it (`Records`), so that the trail as it was written is in order (`chronicled_run`). The list that is
read is in order whatever the identifiers are just if no two entries of one time change the state
of the incident (`reads_back_iff`).
-/

set_option autoImplicit false
set_option relaxedAutoImplicit false

namespace Bongus.Supervisor

open Lib.Fallible Lib.Histories Lib.Runs

/-- The states before and after an entry. -/
def IncidentEvent.edge (event : IncidentEvent) : Option IncidentState × Option IncidentState :=
  (event.priorState, some event.nextState)

/-- The entry leaves the state as it is. -/
def IncidentEvent.Keeps (event : IncidentEvent) : Prop := event.priorState = some event.nextState

instance (event : IncidentEvent) : Decidable event.Keeps :=
  inferInstanceAs (Decidable (event.priorState = some event.nextState))

namespace Database

variable (database : Database)

/-- The stored state of an incident, none if there is no such incident. -/
def stateOf (incidentId : String) : Option IncidentState :=
  (database.find incidentId).map Incident.state

/-- The entries of an incident in the order in which they were written. -/
def history (incidentId : String) : List IncidentEvent :=
  database.events.filter fun event ↦ event.incidentId = incidentId

/-- The same entries with their places in the trail. -/
def trail (incidentId : String) : List (IncidentEvent × ℕ) :=
  database.events.zipIdx.filter fun entry ↦ entry.1.incidentId = incidentId

end Database

/-- `events`, where `eventId` gives the identifiers of the entries of the trail. -/
def events (runtime : Runtime) (eventId : ℕ → String) (incidentId : String)
    (database : Database) : Except String (List (IncidentEvent × Evidence)) :=
  ((database.trail incidentId).insertionSort
    (ReadBefore (fun entry ↦ entry.1.eventTime) fun entry ↦ eventId entry.2)).mapM fun entry ↦ do
      let details ← decodeJson runtime entry.1.detailsJson
      return (entry.1, details)

/-- The list that is read leads from nothing to the stored state of the incident. -/
def ReadsBack (runtime : Runtime) (eventId : ℕ → String) (database : Database) (row : Incident) :
    Prop :=
  ∃ listing, events runtime eventId row.incidentId database = .ok listing ∧
    Route none (listing.map fun entry ↦ entry.1.edge) (some row.state)

/-! ### What a transaction adds -/

/-- The entries that were added have the given time and lead from the state of each incident before
to the one after. -/
structure Records (runtime : Runtime) (now : Option ℤ) (before after : Database)
    (added : List IncidentEvent) : Prop where
  events : after.events = before.events ++ added
  time : ∀ event ∈ added, some event.eventTime = now
  written : ∀ event ∈ added, ∃ details, runtime.dumps (.dict details) = .ok event.detailsJson
  path : ∀ incidentId, Route (before.stateOf incidentId)
    ((added.filter fun event ↦ event.incidentId = incidentId).map IncidentEvent.edge)
    (after.stateOf incidentId)

section Transactions

variable {runtime : Runtime} {now : Option ℤ} {database next : Database}

theorem records_nothing (now : Option ℤ) (database : Database) :
    Records runtime now database database [] where
  events := (List.append_nil _).symm
  time := by simp
  written := by simp
  path _ := rfl

theorem Records.trans {last : Database} {added more : List IncidentEvent}
    (hfirst : Records runtime now database next added)
    (hsecond : Records runtime now next last more) :
    Records runtime now database last (added ++ more) where
  events := by rw [hsecond.events, hfirst.events, List.append_assoc]
  time event hevent := (List.mem_append.mp hevent).elim (hfirst.time event) (hsecond.time event)
  written event hevent :=
    (List.mem_append.mp hevent).elim (hfirst.written event) (hsecond.written event)
  path incidentId := by
    rw [List.filter_append, List.map_append, route_append]
    exact ⟨_, hfirst.path incidentId, hsecond.path incidentId⟩

theorem find_update (database : Database) (incidentId : String) {change : Incident → Incident}
    (hsame : ∀ row, (change row).incidentId = row.incidentId) (other : String) :
    (database.update incidentId change).find other =
      (database.find other).map fun row ↦
        if row.incidentId = incidentId then change row else row := by
  unfold Database.find Database.update
  rw [List.find?_map]
  congr 1
  refine List.find?_congr fun row _ ↦ ?_
  simp only [Function.comp_apply]
  split_ifs
  · rw [hsame]
  · rfl

/-- A transaction that changes one row and adds an entry about it. -/
theorem records_update {incidentId : String} {row : Incident} {change : Incident → Incident}
    {event : IncidentEvent} {details : Evidence} (hfind : database.find incidentId = some row)
    (hsame : ∀ row, (change row).incidentId = row.incidentId)
    (hid : event.incidentId = incidentId) (htime : some event.eventTime = now)
    (hedge : event.edge = (some row.state, some (change row).state))
    (hwritten : runtime.dumps (.dict details) = .ok event.detailsJson) :
    Records runtime now database
      ⟨(database.update incidentId change).incidents, database.events ++ [event]⟩ [event] where
  events := rfl
  time other hother := by rw [List.mem_singleton.mp hother, htime]
  written other hother := ⟨details, by rw [List.mem_singleton.mp hother, hwritten]⟩
  path other := by
    have hafter : Database.stateOf
        ⟨(database.update incidentId change).incidents, database.events ++ [event]⟩ other =
          ((database.find other).map fun row ↦
            if row.incidentId = incidentId then change row else row).map Incident.state := by
      rw [← find_update database incidentId hsame]
      rfl
    rw [hafter, Database.stateOf]
    by_cases hother : other = incidentId
    · obtain ⟨-, hrow⟩ := Database.mem_of_find hfind
      simp [hother, hfind, hid, hedge, hrow, Route]
    · have hskip : ([event].filter fun event ↦ event.incidentId = other) = [] := by
        simp [hid, Ne.symm hother]
      rw [hskip]
      cases hfound : database.find other with
      | none => rfl
      | some found =>
        obtain ⟨-, hrow⟩ := Database.mem_of_find hfound
        rw [Option.map_some, Option.map_some, if_neg (hrow.trans_ne hother), Option.map_some]
        rfl

/-- A transaction that opens an incident. -/
theorem records_insert {row : Incident} {event : IncidentEvent} {details : Evidence}
    (hfind : database.find row.incidentId = none) (hid : event.incidentId = row.incidentId)
    (htime : some event.eventTime = now) (hedge : event.edge = (none, some row.state))
    (hwritten : runtime.dumps (.dict details) = .ok event.detailsJson) :
    Records runtime now database ⟨(database.insert row).incidents, database.events ++ [event]⟩
      [event] where
  events := rfl
  time other hother := by rw [List.mem_singleton.mp hother, htime]
  written other hother := ⟨details, by rw [List.mem_singleton.mp hother, hwritten]⟩
  path other := by
    unfold Database.find at hfind
    by_cases hother : row.incidentId = other
    · subst hother
      simp [Database.stateOf, Database.find, Database.insert, List.find?_append, hfind, hid, hedge,
        Route]
    · simp [Database.stateOf, Database.find, Database.insert, List.find?_append, hid, hother, Route]

theorem observe_records {newId incidentId actor : String} {observation : IncidentObservation}
    {timestamp : ℤ} (hkeyed : database.Keyed)
    (hobserve : observe runtime newId observation timestamp actor database =
      .ok (incidentId, next)) :
    ∃ added, Records runtime (some timestamp) database next added := by
  simp only [observe, bind_eq_ok] at hobserve
  obtain ⟨_, -, hobserve⟩ := hobserve
  split at hobserve
  · simp only [bind_eq_ok, check_eq_ok, throw_bind, pure_eq_ok, appendEvent_eq_ok,
      Prod.mk.injEq] at hobserve
    obtain ⟨evidenceJson, -, hfresh, -, ⟨text, htext, rfl⟩, rfl, rfl⟩ := hobserve
    rw [Option.not_isSome_iff_eq_none] at hfresh
    exact ⟨_, records_insert hfresh rfl rfl rfl htext⟩
  · rename_i row hrow
    simp only [bind_eq_ok, pure_eq_ok, appendEvent_eq_ok, Prod.mk.injEq] at hobserve
    obtain ⟨evidence, -, evidenceJson, -, -, ⟨text, htext, rfl⟩, rfl, rfl⟩ := hobserve
    exact ⟨_, records_update (hkeyed.find_eq (List.mem_of_find?_eq_some hrow)) (fun _ ↦ rfl) rfl
      rfl rfl htext⟩

theorem claim_records {incidentId : String} {timestamp : ℤ}
    (hclaim : claim runtime incidentId timestamp database = .ok (some next)) :
    ∃ added, Records runtime (some timestamp) database next added := by
  unfold claim at hclaim
  split at hclaim
  · cases hclaim
  · rename_i row hfind
    by_cases hstate : row.state ≠ .opened ∧ row.state ≠ .waiting
    · rw [if_pos hstate] at hclaim
      cases hclaim
    rw [if_neg hstate] at hclaim
    by_cases hbudget : row.maxAttempts ≤ row.attemptCount
    · rw [if_pos hbudget] at hclaim
      cases hclaim
    rw [if_neg hbudget] at hclaim
    simp only [bind_eq_ok, pure_eq_ok, appendEvent_eq_ok, Option.some.injEq] at hclaim
    obtain ⟨-, ⟨text, htext, rfl⟩, rfl⟩ := hclaim
    exact ⟨_, records_update hfind (fun _ ↦ rfl) rfl rfl rfl htext⟩

theorem commitAttempt_records {incidentId : String} {outcome : RecoveryResult}
    {settlement : Settlement} {timestamp : ℤ}
    (hcommit : commitAttempt runtime incidentId outcome settlement timestamp database =
      .ok next) :
    ∃ added, Records runtime (some timestamp) database next added := by
  simp only [commitAttempt, bind_eq_ok, orThrow_eq_ok, check_eq_ok, throw_bind,
    appendEvent_eq_ok] at hcommit
  obtain ⟨row, hfind, hstate, evidenceJson, -, text, htext, rfl⟩ := hcommit
  refine ⟨_, records_update hfind (fun _ ↦ rfl) rfl rfl ?_ htext⟩
  rw [not_not.mp hstate]
  rfl

theorem acknowledge_records {incidentId acknowledgedBy note : String} {timestamp : ℤ}
    (hacknowledge : acknowledge runtime incidentId acknowledgedBy timestamp note database =
      .ok next) :
    ∃ added, Records runtime (some timestamp) database next added := by
  obtain ⟨-, row, hfind, hstate, -, -, -, text, htext, rfl⟩ := acknowledge_eq_ok.mp hacknowledge
  refine ⟨_, records_update hfind (fun _ ↦ rfl) rfl rfl ?_ htext⟩
  rw [hstate]
  rfl

theorem interruptedIncident_incidentId (nextState : IncidentState) (nextAttemptAt : Option ℤ)
    (timestamp : ℤ) (row : Incident) :
    (interruptedIncident nextState nextAttemptAt timestamp row).incidentId = row.incidentId := by
  unfold interruptedIncident
  split <;> rfl

theorem interruptAttempt_records {row : Incident} {timestamp : ℤ}
    (hfind : database.find row.incidentId = some row) (hstate : row.state = .recovering)
    (hinterrupt : interruptAttempt runtime timestamp database row = .ok next) :
    (∃ added, Records runtime (some timestamp) database next added) ∧
      ∀ other, other ≠ row.incidentId → next.find other = database.find other := by
  simp only [interruptAttempt, appendEvent_eq_ok] at hinterrupt
  obtain ⟨text, htext, rfl⟩ := hinterrupt
  constructor
  · refine ⟨_, records_update hfind (interruptedIncident_incidentId _ _ timestamp) rfl rfl ?_
      htext⟩
    rw [interruptedIncident, if_pos hstate, hstate]
    rfl
  · intro other hother
    refine (find_update database row.incidentId (interruptedIncident_incidentId
      (if row.maxAttempts ≤ row.attemptCount then .exhausted else .waiting)
      (if row.maxAttempts ≤ row.attemptCount then none else some timestamp) timestamp)
      other).trans ?_
    cases hrow : database.find other with
    | none => rfl
    | some found =>
      obtain ⟨-, hid⟩ := Database.mem_of_find hrow
      rw [Option.map_some, if_neg (hid.trans_ne hother)]

/-- The restart finds each of the rows as it read them, since it writes each of them once. -/
theorem foldlM_interruptAttempt_records {rows : List Incident} {timestamp : ℤ}
    (hnodup : (rows.map Incident.incidentId).Nodup)
    (hrows : ∀ row ∈ rows, database.find row.incidentId = some row ∧ row.state = .recovering)
    (hfold : rows.foldlM (interruptAttempt runtime timestamp) database = .ok next) :
    ∃ added, Records runtime (some timestamp) database next added := by
  induction rows generalizing database with
  | nil =>
    cases hfold
    exact ⟨[], records_nothing _ _⟩
  | cons row rest ih =>
    simp only [List.foldlM_cons, bind_eq_ok] at hfold
    obtain ⟨middle, hmiddle, hfold⟩ := hfold
    rw [List.map_cons, List.nodup_cons] at hnodup
    obtain ⟨hfind, hstate⟩ := hrows row List.mem_cons_self
    obtain ⟨⟨added, hadded⟩, hkept⟩ := interruptAttempt_records hfind hstate hmiddle
    have hrest : ∀ other ∈ rest,
        middle.find other.incidentId = some other ∧ other.state = .recovering := by
      intro other hother
      obtain ⟨hfound, hrecovering⟩ := hrows other (List.mem_cons_of_mem _ hother)
      have hdifferent : other.incidentId ≠ row.incidentId := fun hsame ↦
        hnodup.1 (hsame ▸ List.mem_map_of_mem hother)
      exact ⟨(hkept _ hdifferent).trans hfound, hrecovering⟩
    obtain ⟨more, hmore⟩ := ih hnodup.2 hrest hfold
    exact ⟨_, hadded.trans hmore⟩

theorem recoverInterruptedAttempts_records {timestamp : ℤ} (hkeyed : database.Keyed)
    (hrecover : recoverInterruptedAttempts runtime timestamp database = .ok next) :
    ∃ added, Records runtime (some timestamp) database next added := by
  refine foldlM_interruptAttempt_records ?_ (fun row hrow ↦ ?_) hrecover
  · exact hkeyed.sublist (List.filter_sublist.map _)
  · obtain ⟨hmem, hstate⟩ := List.mem_filter.mp hrow
    exact ⟨hkeyed.find_eq hmem, by simpa using hstate⟩

end Transactions

/-! ### Clocks -/

/-- The clock value that a call goes by. -/
def Call.now : Call → Option ℤ
  | .idle => none
  | .pending now _ => some now
  | .claimed attempt | .handling attempt | .finishing attempt _ | .reclaiming attempt _ |
    .reclaimed attempt _ | .committing attempt .. | .finished attempt => some attempt.now

/-- The clock value that a call begins with. -/
def Event.clock {Coordinator : Type} : Event Coordinator → Option ℤ
  | .observe _ _ timestamp _ | .acknowledge _ _ timestamp _ => some timestamp
  | .startUp _ now | .runDue _ now _ => some now
  | _ => none

section Steps

variable {Coordinator : Type} [DecidableEq Coordinator] {runtime : Runtime}

/-- The time of the entries that a step adds. -/
def writeTime (system : System Coordinator) : Event Coordinator → Option ℤ
  | .advance coordinator => (system.coordinators coordinator).call.now
  | event => event.clock

theorem claimFor_records (attempt : Attempt) (claimed : Call) (database : Database) :
    ∃ added, Records runtime (some attempt.now) database
      (claimFor runtime attempt claimed database).2.2 added := by
  unfold claimFor
  split
  · exact ⟨[], records_nothing _ _⟩
  · exact ⟨[], records_nothing _ _⟩
  · rename_i hclaim
    exact claim_records hclaim

theorem advance_records (call : Call) (recipes : List (String × RecoveryRecipe))
    (database : Database) :
    ∃ added, Records runtime call.now database
      (call.advance runtime recipes database).2.2 added := by
  unfold Call.advance
  split
  · exact ⟨[], records_nothing _ _⟩
  · exact ⟨[], records_nothing _ _⟩
  · exact ⟨[], records_nothing _ _⟩
  · rename_i now incident rest
    split
    · exact ⟨[], records_nothing _ _⟩
    · rename_i recipe _
      exact claimFor_records ⟨incident.row.incidentId, some recipe, now, rest⟩ _ _
  · split <;> exact ⟨[], records_nothing _ _⟩
  · exact ⟨[], records_nothing _ _⟩
  · exact claimFor_records _ _ _
  · split <;> exact ⟨[], records_nothing _ _⟩
  · split
    · exact ⟨[], records_nothing _ _⟩
    · rename_i hfinish
      simp only [finishAttempt, bind_eq_ok] at hfinish
      obtain ⟨settlement, -, hcommit⟩ := hfinish
      exact commitAttempt_records hcommit
  · split <;> exact ⟨[], records_nothing _ _⟩

/-- Every step records what it does to the incidents. -/
theorem step_records (runtime : Runtime) {system : System Coordinator}
    (hkeyed : system.database.Keyed) (event : Event Coordinator) :
    ∃ added, Records runtime (writeTime system event) system.database
      (step runtime system event).database added := by
  unfold step react
  split
  · split
    · exact ⟨[], records_nothing _ _⟩
    · rename_i hobserve
      exact observe_records hkeyed hobserve
  · split
    · exact ⟨[], records_nothing _ _⟩
    · rename_i hacknowledge
      exact acknowledge_records hacknowledge
  · split
    · exact ⟨[], records_nothing _ _⟩
    · rename_i hrecover
      exact recoverInterruptedAttempts_records hkeyed hrecover
  · split <;> exact ⟨[], records_nothing _ _⟩
  · split <;> exact ⟨[], records_nothing _ _⟩
  · exact advance_records _ _ _
  · split <;> exact ⟨[], records_nothing _ _⟩
  · exact ⟨[], records_nothing _ _⟩

theorem readCurrent_now (attempt : Attempt) (outcome : RecoveryResult) (database : Database) :
    ∀ now ∈ (readCurrent runtime attempt outcome database).now, attempt.now = now := by
  unfold readCurrent
  split
  · simp [Call.now]
  · simp [Call.now]
  · split <;> simp [Call.now]

theorem claimFor_now (attempt : Attempt) {claimed : Call}
    (hclaimed : claimed.now = some attempt.now) (database : Database) :
    ∀ now ∈ (claimFor runtime attempt claimed database).1.now, attempt.now = now := by
  unfold claimFor
  split
  · simp [Call.now]
  · simp [Call.now, Attempt.next]
  · simp [hclaimed]

/-- A call keeps its clock value. -/
theorem advance_now (call : Call) (recipes : List (String × RecoveryRecipe))
    (database : Database) :
    ∀ now ∈ (call.advance runtime recipes database).1.now, now ∈ call.now := by
  intro now hnow
  unfold Call.advance at hnow
  split at hnow
  · exact hnow
  · exact hnow
  · cases hnow
  · rename_i since incident rest
    split at hnow
    · exact congrArg some (readCurrent_now _ _ _ now hnow)
    · rename_i recipe _
      exact congrArg some (claimFor_now ⟨incident.row.incidentId, some recipe, since, rest⟩ rfl
        database now hnow)
  · split at hnow
    · cases hnow
    · exact hnow
    · exact hnow
  · exact congrArg some (readCurrent_now _ _ _ now hnow)
  · exact congrArg some (claimFor_now _ rfl database now hnow)
  · split at hnow
    · cases hnow
    · exact hnow
    · exact hnow
  · split at hnow
    · cases hnow
    · exact hnow
  · split at hnow
    · cases hnow
    · exact hnow

theorem now_of_update {coordinators : Coordinator → CoordinatorState}
    {changed coordinator : Coordinator} {state : CoordinatorState} {now : ℤ}
    (hnow : now ∈ (Function.update coordinators changed state coordinator).call.now) :
    (changed = coordinator ∧ now ∈ state.call.now) ∨ now ∈ (coordinators coordinator).call.now := by
  by_cases hchanged : coordinator = changed
  · subst hchanged
    rw [Function.update_self] at hnow
    exact .inl ⟨rfl, hnow⟩
  · rw [Function.update_of_ne hchanged] at hnow
    exact .inr hnow

/-- After a step a call goes by the clock value with which it just began, or by the one it went by
before. -/
theorem step_now (system : System Coordinator) (event : Event Coordinator)
    (coordinator : Coordinator) :
    ∀ now ∈ ((step runtime system event).coordinators coordinator).call.now,
      now ∈ event.clock ∨ now ∈ (system.coordinators coordinator).call.now := by
  intro now hnow
  unfold step react at hnow
  split at hnow
  · split at hnow <;> exact .inr hnow
  · split at hnow <;> exact .inr hnow
  · split at hnow
    · exact .inr hnow
    · rcases now_of_update hnow with ⟨-, hidle⟩ | hkept
      · cases hidle
      · exact .inr hkept
  · split at hnow
    · exact .inr hnow
    · rename_i hregister
      rcases now_of_update hnow with ⟨rfl, hsame⟩ | hkept
      · simp only [registerRecipe, throw_bind, check_eq_ok, pure_eq_ok] at hregister
        obtain ⟨-, -, rfl⟩ := hregister
        exact .inr hsame
      · exact .inr hkept
  · split at hnow
    · rcases now_of_update hnow with ⟨-, hbegins⟩ | hkept
      · exact .inl hbegins
      · exact .inr hkept
    · exact .inr hnow
  · rcases now_of_update hnow with ⟨rfl, hadvanced⟩ | hkept
    · exact .inr (advance_now _ _ _ now hadvanced)
    · exact .inr hkept
  · split at hnow
    · rename_i hcall
      rcases now_of_update hnow with ⟨rfl, hreturned⟩ | hkept
      · rw [hcall]
        exact .inr hreturned
      · exact .inr hkept
    · exact .inr hnow
  · rcases now_of_update hnow with ⟨-, hidle⟩ | hkept
    · cases hidle
    · exact .inr hkept

end Steps

/-! ### Runs -/

section Runs

variable {Coordinator : Type} [DecidableEq Coordinator] {runtime : Runtime}

/-- The clock values of the calls do not decrease. -/
def ClockOrdered (calls : List (Event Coordinator)) : Prop :=
  (calls.filterMap Event.clock).Pairwise (· ≤ ·)

/-- A clock value is the last one of a run. -/
def IsLatest (calls : List (Event Coordinator)) (now : ℤ) : Prop :=
  now ∈ calls.filterMap Event.clock ∧ ∀ value ∈ calls.filterMap Event.clock, value ≤ now

/-- The trail of a serial run. -/
structure Chronicled (runtime : Runtime) (calls : List (Event Coordinator)) : Prop where
  path : ∀ incidentId, Route none
    (((run (step runtime) {} calls).database.history incidentId).map IncidentEvent.edge)
    ((run (step runtime) {} calls).database.stateOf incidentId)
  written : ∀ event ∈ (run (step runtime) {} calls).database.events,
    ∃ details, runtime.dumps (.dict details) = .ok event.detailsJson
  times : (run (step runtime) {} calls).database.events.Pairwise
    fun first second ↦ first.eventTime ≤ second.eventTime
  clock : ∀ event ∈ (run (step runtime) {} calls).database.events,
    event.eventTime ∈ calls.filterMap Event.clock
  /-- A call that is under way began last. -/
  latest : ∀ coordinator,
    ∀ now ∈ ((run (step runtime) {} calls).coordinators coordinator).call.now, IsLatest calls now

theorem chronicled_nil : Chronicled runtime ([] : List (Event Coordinator)) where
  path _ := rfl
  written := by simp
  times := .nil
  clock := by simp
  latest _ now hnow := by cases hnow

theorem now_of_isIdle {call : Call} (hidle : call.isIdle = true) : call.now = none := by
  cases call <;> first | rfl | cases hidle

omit [DecidableEq Coordinator] in
theorem isLatest_of_clock {calls : List (Event Coordinator)} {event : Event Coordinator}
    (hclock : ClockOrdered (calls ++ [event])) {now : ℤ} (hnow : event.clock = some now) :
    IsLatest (calls ++ [event]) now := by
  unfold ClockOrdered at hclock
  unfold IsLatest
  rw [List.filterMap_append, List.filterMap_cons_some hnow, List.filterMap_nil] at hclock ⊢
  refine ⟨List.mem_append_right _ (List.mem_singleton_self now), fun value hvalue ↦ ?_⟩
  rcases List.mem_append.mp hvalue with hvalue | hvalue
  · exact (List.pairwise_append.mp hclock).2.2 value hvalue now (List.mem_singleton_self now)
  · exact (List.mem_singleton.mp hvalue).le

theorem isLatest_of_call {calls : List (Event Coordinator)} {event : Event Coordinator}
    (hchronicled : Chronicled runtime calls) (hclock : event.clock = none)
    {coordinator : Coordinator} {now : ℤ}
    (hnow : now ∈ ((run (step runtime) {} calls).coordinators coordinator).call.now) :
    IsLatest (calls ++ [event]) now := by
  unfold IsLatest
  rw [List.filterMap_append, List.filterMap_cons_none hclock, List.filterMap_nil, List.append_nil]
  exact hchronicled.latest coordinator now hnow

/-- The time of the entries that a step adds is the last clock value. -/
theorem isLatest_writeTime {calls : List (Event Coordinator)} {event : Event Coordinator}
    (hchronicled : Chronicled runtime calls) (hclock : ClockOrdered (calls ++ [event])) {now : ℤ}
    (hnow : writeTime (run (step runtime) {} calls) event = some now) :
    IsLatest (calls ++ [event]) now := by
  cases event with
  | advance coordinator => exact isLatest_of_call hchronicled rfl hnow
  | _ => exact isLatest_of_clock hclock hnow

/-- A call that is under way goes by the last clock value, since no other one begins meanwhile. -/
theorem isLatest_now {calls : List (Event Coordinator)} {event : Event Coordinator}
    (hchronicled : Chronicled runtime calls)
    (hserial : Serial (run (step runtime) {} calls) event)
    (hclock : ClockOrdered (calls ++ [event])) {coordinator : Coordinator} {now : ℤ}
    (hnow : now ∈
      ((step runtime (run (step runtime) {} calls) event).coordinators coordinator).call.now) :
    IsLatest (calls ++ [event]) now := by
  rcases step_now _ event coordinator now hnow with hbegins | hbefore
  · exact isLatest_of_clock hclock hbegins
  · have hbusy : ¬ ∀ coordinator,
        ((run (step runtime) {} calls).coordinators coordinator).call.isIdle = true := by
      intro hidle
      rw [now_of_isIdle (hidle coordinator)] at hbefore
      cases hbefore
    cases event with
    | advance | handlerReturns | abandon => exact isLatest_of_call hchronicled rfl hbefore
    | _ => exact absurd hserial hbusy

theorem Chronicled.concat {calls : List (Event Coordinator)} {event : Event Coordinator}
    (hchronicled : Chronicled runtime calls)
    (hserial : Serial (run (step runtime) {} calls) event)
    (hclock : ClockOrdered (calls ++ [event])) : Chronicled runtime (calls ++ [event]) := by
  obtain ⟨added, hadded⟩ := step_records runtime (keyed_run calls) event
  have hlatest : ∀ entry ∈ added, IsLatest (calls ++ [event]) entry.eventTime :=
    fun entry hentry ↦ isLatest_writeTime hchronicled hclock (hadded.time entry hentry).symm
  have hkept : ∀ value ∈ calls.filterMap Event.clock,
      value ∈ (calls ++ [event]).filterMap Event.clock := by
    intro value hvalue
    rw [List.filterMap_append]
    exact List.mem_append_left _ hvalue
  constructor
  · intro incidentId
    rw [run_concat, Database.history, hadded.events, List.filter_append, List.map_append,
      route_append]
    exact ⟨_, hchronicled.path incidentId, hadded.path incidentId⟩
  · intro entry hentry
    rw [run_concat, hadded.events] at hentry
    exact (List.mem_append.mp hentry).elim (hchronicled.written entry) (hadded.written entry)
  · rw [run_concat, hadded.events, List.pairwise_append]
    refine ⟨hchronicled.times, ?_, fun first hfirst second hsecond ↦ ?_⟩
    · refine List.pairwise_iff_forall_sublist.mpr fun {first second} hsublist ↦ ?_
      have hfirst := hsublist.subset (List.mem_cons_self)
      have hsecond := hsublist.subset (List.mem_cons_of_mem _ (List.mem_singleton_self second))
      exact (hlatest second hsecond).2 _ (hlatest first hfirst).1
    · exact (hlatest second hsecond).2 _ (hkept _ (hchronicled.clock first hfirst))
  · intro entry hentry
    rw [run_concat, hadded.events] at hentry
    rcases List.mem_append.mp hentry with hentry | hentry
    · exact hkept _ (hchronicled.clock entry hentry)
    · exact (hlatest entry hentry).1
  · intro coordinator now hnow
    rw [run_concat] at hnow
    exact isLatest_now hchronicled hserial hclock hnow

theorem chronicled_run {calls : List (Event Coordinator)}
    (hserial : Along (step runtime) Serial {} calls) (hclock : ClockOrdered calls) :
    Chronicled runtime calls := by
  induction calls using List.reverseRecOn with
  | nil => exact chronicled_nil
  | append_singleton calls event ih =>
    obtain ⟨hbefore, hevent, -⟩ := (along_append _ calls [event]).mp hserial
    have hordered : ClockOrdered calls := by
      unfold ClockOrdered at hclock
      rw [List.filterMap_append] at hclock
      exact (List.pairwise_append.mp hclock).1
    exact (ih hbefore hordered).concat hevent hclock

end Runs

/-! ### Reading back -/

theorem map_fst_trail (database : Database) (incidentId : String) :
    (database.trail incidentId).map Prod.fst = database.history incidentId := by
  have hevents : database.events.zipIdx.map Prod.fst = database.events := List.zipIdx_map_fst 0 _
  unfold Database.trail Database.history
  nth_rewrite 2 [← hevents]
  rw [List.filter_map]
  rfl

theorem places_trail (database : Database) (incidentId : String) :
    (database.trail incidentId).Pairwise fun first second ↦ first.2 < second.2 := by
  unfold Database.trail
  refine List.Pairwise.filter _ (List.pairwise_map.mp ?_)
  rw [List.zipIdx_map_snd]
  exact List.pairwise_lt_range'

/-- Names in an order. -/
def runOf (length : ℕ) : String := String.ofList (List.replicate length 'a')

theorem strictMono_runOf : StrictMono runOf := by
  refine strictMono_nat_of_lt_succ fun length ↦ ?_
  rw [String.lt_iff_toList_lt, runOf, runOf, String.toList_ofList, String.toList_ofList]
  induction length with
  | zero => exact List.nil_lt_cons _ _
  | succ length ih =>
    rw [List.replicate_succ, List.replicate_succ]
    exact List.cons_lt_cons_self.mpr ih

section Reading

variable {runtime : Runtime}

/-- Entries whose details were written can be listed. -/
theorem events_eq (hlaw : runtime.Lawful) {database : Database}
    (hwritten : ∀ event ∈ database.events,
      ∃ details, runtime.dumps (.dict details) = .ok event.detailsJson)
    (eventId : ℕ → String) (incidentId : String) :
    ∃ listing, events runtime eventId incidentId database = .ok listing ∧
      listing.map Prod.fst = ((database.trail incidentId).insertionSort (ReadBefore
        (fun entry ↦ entry.1.eventTime) fun entry ↦ eventId entry.2)).map Prod.fst := by
  unfold events
  have hread : ∀ entry ∈ (database.trail incidentId).insertionSort (ReadBefore
      (fun entry ↦ entry.1.eventTime) fun entry ↦ eventId entry.2), ∃ result, (do
      let details ← decodeJson runtime entry.1.detailsJson
      return (entry.1, details)) = .ok result ∧ result.1 = entry.1 := by
    intro entry hentry
    have hmem : entry.1 ∈ database.history incidentId := by
      rw [← map_fst_trail]
      exact List.mem_map_of_mem ((List.perm_insertionSort _ _).mem_iff.mp hentry)
    obtain ⟨details, hdetails⟩ := hwritten entry.1 (List.mem_filter.mp hmem).1
    obtain ⟨hsome, read, hloads, -⟩ := hlaw.loads_dumps details _ hdetails
    refine ⟨(entry.1, read), ?_, rfl⟩
    rw [decodeJson, if_neg hsome, hloads]
    rfl
  obtain ⟨listing, hlisting, hsame⟩ := exists_mapM_eq_ok hread
  exact ⟨listing, hlisting, map_eq_of_forall₂ hsame⟩

/-- The list of an incident is in order whatever the identifiers are just if entries of one time
leave its state as it is. -/
theorem reads_back_iff {Coordinator : Type} [DecidableEq Coordinator] (hlaw : runtime.Lawful)
    {calls : List (Event Coordinator)} (hserial : Along (step runtime) Serial {} calls)
    (hclock : ClockOrdered calls) {row : Incident}
    (hrow : row ∈ (run (step runtime) {} calls).database.incidents) :
    (∀ eventId : ℕ → String,
        Set.InjOn eventId (Set.Iio (run (step runtime) {} calls).database.events.length) →
          ReadsBack runtime eventId (run (step runtime) {} calls).database row) ↔
      ((run (step runtime) {} calls).database.history row.incidentId).Pairwise fun first second ↦
        first.eventTime = second.eventTime → first.Keeps ∧ second.Keeps := by
  have hchronicled := chronicled_run hserial hclock
  have hkeyed : (run (step runtime) {} calls).database.Keyed := keyed_run calls
  have hfind := hkeyed.find_eq hrow
  have hpath := hchronicled.path row.incidentId
  have htimes := hchronicled.times.filter fun event ↦ event.incidentId = row.incidentId
  have hplaces := places_trail (run (step runtime) {} calls).database row.incidentId
  have hlisted := events_eq hlaw hchronicled.written
  generalize (run (step runtime) {} calls).database = database
    at hfind hpath htimes hplaces hlisted ⊢
  change (database.history row.incidentId).Pairwise _ at htimes
  rw [Database.stateOf, hfind, Option.map_some, ← map_fst_trail, List.map_map] at hpath
  rw [← map_fst_trail, List.pairwise_map] at htimes ⊢
  constructor
  · intro hreads
    refine still_of_paths strictMono_runOf htimes hplaces hpath fun eventId hinjective ↦ ?_
    obtain ⟨listing, hlisting, hread⟩ := hreads eventId hinjective.injOn
    obtain ⟨same, hsame, hentries⟩ := hlisted eventId row.incidentId
    obtain rfl : listing = same := Except.ok.inj (hlisting.symm.trans hsame)
    have hedges := congrArg (List.map IncidentEvent.edge) hentries
    rw [List.map_map, List.map_map] at hedges
    exact hedges ▸ hread
  · intro hstill eventId _
    obtain ⟨listing, hlisting, hentries⟩ := hlisted eventId row.incidentId
    have hedges := congrArg (List.map IncidentEvent.edge) hentries
    rw [List.map_map, List.map_map,
      map_insertionSort_of_still hpath htimes hstill fun entry ↦ eventId entry.2] at hedges
    exact ⟨listing, hlisting, hedges ▸ hpath⟩

end Reading

/-! ### An attempt that ends before it starts -/

instance {Coordinator : Type} (calls : List (Event Coordinator)) : Decidable (ClockOrdered calls) :=
  inferInstanceAs (Decidable ((calls.filterMap Event.clock).Pairwise (· ≤ ·)))

/-- An incident that is observed three times, twice at one time. -/
def observedThrice : List (Event Unit) :=
  [.observe "incident" (sampleObservation .warning []) 0 "detector",
    .observe "second" (sampleObservation .warning []) 1 "detector",
    .observe "third" (sampleObservation .warning []) 1 "detector"]

theorem reads_back_observed :
    ∃ row ∈ (run (step sampleRuntime) {} observedThrice).database.incidents,
      ∀ eventId : ℕ → String,
        Set.InjOn eventId
            (Set.Iio (run (step sampleRuntime) {} observedThrice).database.events.length) →
          ReadsBack sampleRuntime eventId (run (step sampleRuntime) {} observedThrice).database
            row := by
  have hrows : (run (step sampleRuntime) {} observedThrice).database.incidents ≠ [] := by
    decide +kernel
  obtain ⟨row, hrow⟩ := List.exists_mem_of_ne_nil _ hrows
  have hstill : ∀ row ∈ (run (step sampleRuntime) {} observedThrice).database.incidents,
      ((run (step sampleRuntime) {} observedThrice).database.history row.incidentId).Pairwise
        fun first second ↦ first.eventTime = second.eventTime → first.Keeps ∧ second.Keeps := by
    decide +kernel
  exact ⟨row, hrow, (reads_back_iff sampleRuntime_lawful (by decide +kernel) (by decide +kernel)
    hrow).mpr (hstill row hrow)⟩

/-- The identifiers of the three entries of a recovery. -/
def sampleEventId (place : ℕ) : String :=
  ["0d3f7a52c1e84b6f9a20d7b5e8c41f36", "e81b5c09f7a24d3c8b6e02f4a97d5c10",
    "4c9e20b7d5f1463a8e07b3c2f6a1d958"].getD place ""

/-- Both entries of an attempt have the time of the call, and the one of its end is listed before
the one of its start. -/
theorem attempt_listed_backwards :
    Along (step sampleRuntime) Serial {} recoveryProven ∧ ClockOrdered recoveryProven ∧
      Set.InjOn sampleEventId
        (Set.Iio (run (step sampleRuntime) {} recoveryProven).database.events.length) ∧
      ∃ row ∈ (run (step sampleRuntime) {} recoveryProven).database.incidents,
        ¬ ReadsBack sampleRuntime sampleEventId
          (run (step sampleRuntime) {} recoveryProven).database row := by
  refine ⟨by decide +kernel, by decide +kernel, ?_, ?_⟩
  · have hlength : (run (step sampleRuntime) {} recoveryProven).database.events.length = 3 := by
      decide +kernel
    rw [hlength]
    have hdistinct : ∀ first < 3, ∀ second < 3,
        sampleEventId first = sampleEventId second → first = second := by decide +kernel
    exact fun first hfirst second hsecond ↦ hdistinct first hfirst second hsecond
  · have hrows : (run (step sampleRuntime) {} recoveryProven).database.incidents ≠ [] := by
      decide +kernel
    obtain ⟨row, hrow⟩ := List.exists_mem_of_ne_nil _ hrows
    have hlisted : ∀ row ∈ (run (step sampleRuntime) {} recoveryProven).database.incidents,
        ∃ listing ∈ (events sampleRuntime sampleEventId row.incidentId
          (run (step sampleRuntime) {} recoveryProven).database).toOption,
          ¬ Route none (listing.map fun entry ↦ entry.1.edge) (some row.state) := by
      decide +kernel
    refine ⟨row, hrow, ?_⟩
    rintro ⟨listing, hlisting, hpath⟩
    obtain ⟨same, hsame, hbroken⟩ := hlisted row hrow
    rw [hlisting] at hsame
    cases hsame
    exact hbroken hpath

end Bongus.Supervisor
