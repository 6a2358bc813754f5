import Bongus.Lib.Runs
import Bongus.Supervisor.Incidents

/-!
# Coordinators on one database

Any number of coordinators work on the database of the incidents. A call of `observe` or
`acknowledge` is one transaction, but `run_due` makes many accesses, and between two of them
everything else can happen (`Call`). In particular the row by which an attempt is finished is read
before the transaction that writes the result. The handlers of the recipes return anything or raise,
and a call can end at each of its accesses, by an exception or because the process is gone
(`Event.abandon`).

`react_writes` reduces every step of the system to one transaction.
-/

set_option autoImplicit false
set_option relaxedAutoImplicit false

namespace Bongus.Supervisor

open Lib.Dictionary Lib.Fallible Lib.Runs

/-- The turn of one incident in the loop of `run_due`, with the incidents that come after it. -/
structure Attempt where
  incidentId : String
  recipe : Option RecoveryRecipe
  now : ℤ
  rest : List IncidentPayload

/-- Where a call of `run_due` stands. The next access of `claimed`, `finishing`, `reclaimed` and
`finished` is the query of `get`, that of `reclaiming` the transaction of `_claim` and that of
`committing` the transaction that finishes the attempt. -/
inductive Call where
  | idle
  | pending (now : ℤ) (incidents : List IncidentPayload)
  | claimed (attempt : Attempt)
  | handling (attempt : Attempt)
  | finishing (attempt : Attempt) (outcome : RecoveryResult)
  | reclaiming (attempt : Attempt) (outcome : RecoveryResult)
  | reclaimed (attempt : Attempt) (outcome : RecoveryResult)
  | committing (attempt : Attempt) (outcome : RecoveryResult) (current : IncidentPayload)
  | finished (attempt : Attempt)

/-- The loop goes on with the next incident. -/
def Attempt.next (attempt : Attempt) : Call := .pending attempt.now attempt.rest

structure CoordinatorState where
  recipes : List (String × RecoveryRecipe) := []
  call : Call := .idle

def registerRecipe (recipe : RecoveryRecipe) (coordinator : CoordinatorState) :
    Except String CoordinatorState := do
  if isMissing recipe.recipeId then throw "recipe_id is required"
  if recipe.baseBackoffSeconds < 0 ∨ recipe.maxBackoffSeconds < recipe.baseBackoffSeconds then
    throw "invalid recipe backoff"
  return { coordinator with recipes := assign coordinator.recipes recipe.recipeId recipe }

/-- The result of a handler, which may raise an exception of some type. -/
def handlerOutcome : Except (String × String) RecoveryResult → RecoveryResult
  | .ok outcome => outcome
  | .error (name, text) => ⟨false, false, "recipe raised " ++ name ++ ": " ++ text, none⟩

section Calls

variable (runtime : Runtime)

/-- The query with which `_finish_attempt` begins. -/
def readCurrent (attempt : Attempt) (outcome : RecoveryResult) (database : Database) : Call :=
  match get runtime attempt.incidentId database with
  | .error _ => .idle
  | .ok none => .idle
  | .ok (some current) =>
    if current.row.state = .recovering then .committing attempt outcome current
    else .reclaiming attempt outcome

/-- The transaction of `_claim`, after which the call is `claimed`. -/
def claimFor (attempt : Attempt) (claimed : Call) (database : Database) :
    Call × Option Occurrence × Database :=
  match claim runtime attempt.incidentId attempt.now database with
  | .error _ => (.idle, none, database)
  | .ok none => (attempt.next, none, database)
  | .ok (some next) => (claimed, some (.started attempt.incidentId), next)

/-- The transaction with which `_finish_attempt` ends. -/
def finishAttempt (attempt : Attempt) (outcome : RecoveryResult) (current : IncidentPayload)
    (database : Database) : Except String Database := do
  let settlement ← settle runtime current outcome attempt.recipe attempt.now
  commitAttempt runtime attempt.incidentId outcome settlement attempt.now database

/-- The next access of a call. -/
def Call.advance (call : Call) (recipes : List (String × RecoveryRecipe)) (database : Database) :
    Call × Option Occurrence × Database :=
  match call with
  | .idle | .handling _ => (call, none, database)
  | .pending _ [] => (.idle, none, database)
  | .pending now (incident :: rest) =>
    match recipes.lookup incident.row.recipeId with
    | none => (readCurrent runtime ⟨incident.row.incidentId, none, now, rest⟩
        ⟨false, false, "recovery recipe is not registered", none⟩ database, none, database)
    | some recipe =>
      let attempt : Attempt := ⟨incident.row.incidentId, some recipe, now, rest⟩
      claimFor runtime attempt (.claimed attempt) database
  | .claimed attempt =>
    match get runtime attempt.incidentId database with
    | .error _ => (.idle, none, database)
    | .ok none => (attempt.next, none, database)
    | .ok (some _) => (.handling attempt, none, database)
  | .finishing attempt outcome => (readCurrent runtime attempt outcome database, none, database)
  | .reclaiming attempt outcome =>
    claimFor runtime attempt (.reclaimed attempt outcome) database
  | .reclaimed attempt outcome =>
    match get runtime attempt.incidentId database with
    | .error _ => (.idle, none, database)
    | .ok none => (attempt.next, none, database)
    | .ok (some current) => (.committing attempt outcome current, none, database)
  | .committing attempt outcome current =>
    match finishAttempt runtime attempt outcome current database with
    | .error _ => (.idle, none, database)
    | .ok next => (.finished attempt,
        some (.finished attempt.incidentId current outcome attempt.recipe), next)
  | .finished attempt =>
    match get runtime attempt.incidentId database with
    | .error _ => (.idle, none, database)
    | .ok _ => (attempt.next, none, database)

end Calls

/-! ### The system -/

structure System (Coordinator : Type) where
  database : Database := {}
  coordinators : Coordinator → CoordinatorState := fun _ ↦ {}

theorem keyed_start (Coordinator : Type) : ({} : System Coordinator).database.Keyed :=
  List.nodup_nil

inductive Event (Coordinator : Type) where
  /-- Call `observe`, which takes `newId` for an incident that it opens. -/
  | observe (newId : String) (observation : IncidentObservation) (timestamp : ℤ) (actor : String)
  | acknowledge (incidentId acknowledgedBy : String) (timestamp : ℤ) (note : String)
  /-- Construct a coordinator, anew after a restart. -/
  | startUp (coordinator : Coordinator) (now : ℤ)
  | registerRecipe (coordinator : Coordinator) (recipe : RecoveryRecipe)
  | runDue (coordinator : Coordinator) (now limit : ℤ)
  | advance (coordinator : Coordinator)
  | handlerReturns (coordinator : Coordinator) (result : Except (String × String) RecoveryResult)
  | abandon (coordinator : Coordinator)

section Steps

variable {Coordinator : Type} [DecidableEq Coordinator] (runtime : Runtime)

def System.setCall (system : System Coordinator) (coordinator : Coordinator) (call : Call) :
    System Coordinator :=
  { system with
    coordinators := Function.update system.coordinators coordinator
      { system.coordinators coordinator with call := call } }

/-- A step, and what the transaction that it committed was about. -/
def react (system : System Coordinator) :
    Event Coordinator → System Coordinator × Option Occurrence
  | .observe newId observation timestamp actor =>
    match observe runtime newId observation timestamp actor system.database with
    | .error _ => (system, none)
    | .ok (incidentId, next) => ({ system with database := next },
        some (.observed incidentId (keys (observation.evidence.getD []))))
  | .acknowledge incidentId acknowledgedBy timestamp note =>
    match acknowledge runtime incidentId acknowledgedBy timestamp note system.database with
    | .error _ => (system, none)
    | .ok next => ({ system with database := next }, some (.acknowledged incidentId))
  | .startUp coordinator now =>
    match recoverInterruptedAttempts runtime now system.database with
    | .error _ => (system, none)
    | .ok next =>
      (⟨next, Function.update system.coordinators coordinator {}⟩, none)
  | .registerRecipe coordinator recipe =>
    match registerRecipe recipe (system.coordinators coordinator) with
    | .error _ => (system, none)
    | .ok next => ({ system with
        coordinators := Function.update system.coordinators coordinator next }, none)
  | .runDue coordinator now limit =>
    match (system.coordinators coordinator).call, due runtime now limit system.database with
    | .idle, .ok incidents => (system.setCall coordinator (.pending now incidents), none)
    | _, _ => (system, none)
  | .advance coordinator =>
    let (call, occurrence, next) := (system.coordinators coordinator).call.advance runtime
      (system.coordinators coordinator).recipes system.database
    ({ system.setCall coordinator call with database := next }, occurrence)
  | .handlerReturns coordinator result =>
    match (system.coordinators coordinator).call with
    | .handling attempt =>
      (system.setCall coordinator (.finishing attempt (handlerOutcome result)), none)
    | _ => (system, none)
  | .abandon coordinator => (system.setCall coordinator .idle, none)

def step (system : System Coordinator) (event : Event Coordinator) : System Coordinator :=
  (react runtime system event).1

def occurrence (system : System Coordinator) (event : Event Coordinator) : Option Occurrence :=
  (react runtime system event).2

end Steps

/-! ### What a step does -/

section Effects

variable {Coordinator : Type} [DecidableEq Coordinator] {runtime : Runtime}

theorem claimFor_writes {database : Database} (hkeyed : database.Keyed) (attempt : Attempt)
    (claimed : Call) :
    Writes runtime database (claimFor runtime attempt claimed database).2.1
      (claimFor runtime attempt claimed database).2.2 := by
  unfold claimFor
  split
  · exact writes_nothing database
  · exact writes_nothing database
  · rename_i hclaim
    exact claim_writes hkeyed hclaim

theorem advance_writes {database : Database} (hkeyed : database.Keyed) (call : Call)
    (recipes : List (String × RecoveryRecipe)) :
    Writes runtime database (call.advance runtime recipes database).2.1
      (call.advance runtime recipes database).2.2 := by
  unfold Call.advance
  split
  · exact writes_nothing database
  · exact writes_nothing database
  · exact writes_nothing database
  · split
    · exact writes_nothing database
    · exact claimFor_writes hkeyed _ _
  · split <;> exact writes_nothing database
  · exact writes_nothing database
  · exact claimFor_writes hkeyed _ _
  · split <;> exact writes_nothing database
  · split
    · exact writes_nothing database
    · rename_i hfinish
      simp only [finishAttempt, bind_eq_ok] at hfinish
      obtain ⟨settlement, hsettle, hcommit⟩ := hfinish
      exact commitAttempt_writes hkeyed hsettle hcommit
  · split <;> exact writes_nothing database

/-- Every step is one transaction on the database, or leaves it as it is. -/
theorem react_writes (runtime : Runtime) {system : System Coordinator}
    (hkeyed : system.database.Keyed) (event : Event Coordinator) :
    Writes runtime system.database (occurrence runtime system event)
      (step runtime system event).database := by
  unfold occurrence step react
  split
  · split
    · exact writes_nothing _
    · rename_i hobserve
      exact observe_writes hkeyed hobserve
  · split
    · exact writes_nothing _
    · rename_i hacknowledge
      exact acknowledge_writes hkeyed hacknowledge
  · split
    · exact writes_nothing _
    · rename_i hrecover
      exact recoverInterruptedAttempts_writes hrecover
  · split <;> exact writes_nothing _
  · split <;> exact writes_nothing _
  · exact advance_writes hkeyed _ _
  · split <;> exact writes_nothing _
  · exact writes_nothing _

theorem claimFor_occurrence (attempt : Attempt) (claimed : Call) (database : Database) :
    (claimFor runtime attempt claimed database).2.1 = none ∨
      (claimFor runtime attempt claimed database).2.1 = some (.started attempt.incidentId) := by
  unfold claimFor
  split
  · exact .inl rfl
  · exact .inl rfl
  · exact .inr rfl

/-- What the transaction of an access of `run_due` is about. -/
theorem advance_occurrence (runtime : Runtime) (call : Call)
    (recipes : List (String × RecoveryRecipe)) (database : Database) :
    (call.advance runtime recipes database).2.1 = none ∨
      (∃ incidentId, (call.advance runtime recipes database).2.1 = some (.started incidentId)) ∨
      ∃ attempt outcome current, call = .committing attempt outcome current ∧
        (call.advance runtime recipes database).2.1 =
          some (.finished attempt.incidentId current outcome attempt.recipe) := by
  have hclaim (attempt : Attempt) (claimed : Call) :
      (claimFor runtime attempt claimed database).2.1 = none ∨
        (∃ incidentId, (claimFor runtime attempt claimed database).2.1 =
          some (.started incidentId)) :=
    (claimFor_occurrence attempt claimed database).imp_right fun hstarted ↦ ⟨_, hstarted⟩
  unfold Call.advance
  split
  · exact .inl rfl
  · exact .inl rfl
  · exact .inl rfl
  · split
    · exact .inl rfl
    · exact (hclaim _ _).imp_right .inl
  · split <;> exact .inl rfl
  · exact .inl rfl
  · exact (hclaim _ _).imp_right .inl
  · split <;> exact .inl rfl
  · split
    · exact .inl rfl
    · exact .inr (.inr ⟨_, _, _, rfl, rfl⟩)
  · split <;> exact .inl rfl

/-- An attempt is finished by the call that read the row it goes by. -/
theorem committing_of_finished {system : System Coordinator} {event : Event Coordinator}
    {incidentId : String} {current : IncidentPayload} {outcome : RecoveryResult}
    {recipe : Option RecoveryRecipe}
    (hfinished : occurrence runtime system event =
      some (.finished incidentId current outcome recipe)) :
    ∃ coordinator attempt, event = .advance coordinator ∧
      (system.coordinators coordinator).call = .committing attempt outcome current ∧
      attempt.incidentId = incidentId ∧ attempt.recipe = recipe := by
  cases event with
  | advance coordinator =>
    rcases advance_occurrence runtime (system.coordinators coordinator).call
      (system.coordinators coordinator).recipes system.database with
      hnone | ⟨_, hstarted⟩ | ⟨attempt, _, _, hcall, hsome⟩
    · cases hfinished.symm.trans hnone
    · cases hfinished.symm.trans hstarted
    · cases hfinished.symm.trans hsome
      exact ⟨coordinator, attempt, rfl, hcall, rfl, rfl⟩
  | abandon => cases hfinished
  | _ =>
    simp only [occurrence, react] at hfinished
    split at hfinished <;> cases hfinished

/-- Only `acknowledge` acknowledges. -/
theorem acknowledge_of_acknowledged {system : System Coordinator} {event : Event Coordinator}
    {incidentId : String}
    (hacknowledged : occurrence runtime system event = some (.acknowledged incidentId)) :
    ∃ acknowledgedBy timestamp note,
      event = .acknowledge incidentId acknowledgedBy timestamp note := by
  cases event with
  | acknowledge _ acknowledgedBy timestamp note =>
    simp only [occurrence, react] at hacknowledged
    split at hacknowledged <;> cases hacknowledged
    exact ⟨acknowledgedBy, timestamp, note, rfl⟩
  | advance coordinator =>
    rcases advance_occurrence runtime (system.coordinators coordinator).call
      (system.coordinators coordinator).recipes system.database with
      hnone | ⟨_, hstarted⟩ | ⟨attempt, _, _, hcall, hsome⟩
    · cases hacknowledged.symm.trans hnone
    · cases hacknowledged.symm.trans hstarted
    · cases hacknowledged.symm.trans hsome
  | abandon => cases hacknowledged
  | _ =>
    simp only [occurrence, react] at hacknowledged
    split at hacknowledged <;> cases hacknowledged

end Effects

end Bongus.Supervisor
