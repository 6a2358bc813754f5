import Bongus.Lib.Dictionary
import Bongus.Lib.Documents
import Bongus.Lib.Fallible
import Bongus.Lib.Text
import Mathlib.Data.List.Find
import Mathlib.Data.List.Sort

/-!
# Incidents

`bongus/supervisor/incidents.py`: an incident is a row with an owner, a bounded number of recovery
attempts and the evidence about it, and each transition of it is an entry of an audit trail. Each
function here is one access to the database, a query or a transaction that is committed as a whole
or not at all. A call that makes several accesses is put together from them elsewhere.

`Writes` says once what a transaction can do to the database, and `observe_writes`, `claim_writes`,
`commitAttempt_writes`, `acknowledge_writes` and `recoverInterruptedAttempts_writes` that the
transactions do nothing else.

A time is a number of microseconds, which the texts of the columns order in the same way. The
identifiers of the entries of the trail are left out.
-/

set_option autoImplicit false
set_option relaxedAutoImplicit false

namespace Bongus.Supervisor

open Lib.Dictionary Lib.Documents Lib.Fallible Lib.Text

inductive IncidentSeverity where
  | info
  | warning
  | critical
deriving DecidableEq, Repr

inductive IncidentScope where
  | symbol
  | service
  | venue
  | global
deriving DecidableEq, Repr

inductive IncidentState where
  | opened
  | recovering
  | waiting
  | ackRequired
  | exhausted
  | resolved
deriving DecidableEq, Repr

inductive IncidentEventType where
  | observed
  | reobserved
  | attemptStarted
  | attemptSucceeded
  | attemptFailed
  | attemptInterrupted
  | acknowledged
deriving DecidableEq, Repr

def IncidentSeverity.order : IncidentSeverity → ℕ
  | .info => 0
  | .warning => 1
  | .critical => 2

/-- The later of two severities, the first one if they are the same. -/
def IncidentSeverity.escalate (current observed : IncidentSeverity) : IncidentSeverity :=
  if current.order < observed.order then observed else current

abbrev Evidence := List (String × Json)

structure IncidentObservation where
  incidentKey : String
  category : String
  scopeType : IncidentScope
  scopeValue : String
  severity : IncidentSeverity
  owner : String
  recipeId : String
  maxAttempts : ℤ := 5
  requiresAck : Bool := false
  evidence : Option Evidence := none

structure RecoveryResult where
  success : Bool
  invariantsProven : Bool
  note : String
  evidence : Option Evidence := none
deriving DecidableEq

/-- A recipe without its handler, which may return anything. -/
structure RecoveryRecipe where
  recipeId : String
  baseBackoffSeconds : ℚ := 30
  maxBackoffSeconds : ℚ := 1800
  autoResolveAllowed : Bool := false
deriving DecidableEq

/-- A row of `supervisor_incidents`. -/
structure Incident where
  incidentId : String
  incidentKey : String
  category : String
  scopeType : IncidentScope
  scopeValue : String
  severity : IncidentSeverity
  owner : String
  recipeId : String
  state : IncidentState
  occurrences : ℕ := 1
  attemptCount : ℕ := 0
  maxAttempts : ℤ
  nextAttemptAt : Option ℤ
  requiresAck : Bool
  lastError : String := ""
  evidenceJson : String
  openedAt : ℤ
  updatedAt : ℤ
  resolvedAt : Option ℤ := none
  acknowledgedAt : Option ℤ := none
  acknowledgedBy : String := ""
  version : ℕ := 1
deriving DecidableEq, Repr

/-- A row of `supervisor_incident_events`. The prior state of a new incident is none. -/
structure IncidentEvent where
  incidentId : String
  eventTime : ℤ
  eventType : IncidentEventType
  actor : String
  priorState : Option IncidentState
  nextState : IncidentState
  note : String
  detailsJson : String
deriving DecidableEq, Repr

/-- A row as a caller gets it, with its evidence read. -/
structure IncidentPayload where
  row : Incident
  evidence : Evidence
deriving DecidableEq

structure Database where
  incidents : List Incident := []
  events : List IncidentEvent := []
deriving DecidableEq, Repr

/-- What is taken from the libraries: the JSON writer with sorted names, the JSON reader, and a time
plus a number of seconds. -/
structure Runtime where
  dumps : Json → Except String String
  loads : String → Except String Json
  addSeconds : ℤ → ℚ → Except String ℤ

def isMissing (text : String) : Bool := isBlank separatorBlank text

namespace Database

/-- The row of an incident. -/
def find (database : Database) (incidentId : String) : Option Incident :=
  database.incidents.find? fun row ↦ row.incidentId = incidentId

/-- `UPDATE supervisor_incidents SET … WHERE incident_id = ?` -/
def update (database : Database) (incidentId : String) (change : Incident → Incident) : Database :=
  { database with
    incidents := database.incidents.map fun row ↦
      if row.incidentId = incidentId then change row else row }

def insert (database : Database) (row : Incident) : Database :=
  { database with incidents := database.incidents ++ [row] }

end Database

section Transactions

variable (runtime : Runtime)

/-- `_append_event` -/
def appendEvent (event : String → IncidentEvent) (details : Evidence) (database : Database) :
    Except String Database := do
  let detailsJson ← runtime.dumps (.dict details)
  return { database with events := database.events ++ [event detailsJson] }

/-- `_decode_json` -/
def decodeJson (value : String) : Except String Evidence :=
  if value = "" then .ok [] else do
    match ← runtime.loads value with
    | .dict entries => return entries
    | decoded => return [("value", decoded)]

/-- `_decode` -/
def decode (row : Incident) : Except String IncidentPayload := do
  let evidence ← decodeJson runtime row.evidenceJson
  return ⟨row, evidence⟩

def get (incidentId : String) (database : Database) : Except String (Option IncidentPayload) :=
  match database.find incidentId with
  | none => .ok none
  | some row => do
    let payload ← decode runtime row
    return some payload

/-- `_validate_observation` -/
def validateObservation (observation : IncidentObservation) : Except String Unit := do
  if isMissing observation.incidentKey then throw "incident_key is required"
  if isMissing observation.category then throw "category is required"
  if isMissing observation.owner then throw "owner is required"
  if isMissing observation.recipeId then throw "recipe_id is required"
  if observation.maxAttempts < 1 then throw "max_attempts must be positive"
  if observation.scopeType = .global then
    if !isMissing observation.scopeValue then
      throw "global incidents must not carry a scope value"
  else if isMissing observation.scopeValue then
    throw "non-global incidents require a scope value"

/-- The row that an observation opens. -/
def openedIncident (incidentId : String) (observation : IncidentObservation) (evidenceJson : String)
    (timestamp : ℤ) : Incident where
  incidentId := incidentId
  incidentKey := observation.incidentKey
  category := observation.category
  scopeType := observation.scopeType
  scopeValue := observation.scopeValue
  severity := observation.severity
  owner := observation.owner
  recipeId := observation.recipeId
  state := .opened
  maxAttempts := observation.maxAttempts
  nextAttemptAt := some timestamp
  requiresAck := observation.requiresAck
  evidenceJson := evidenceJson
  openedAt := timestamp
  updatedAt := timestamp

/-- What a further observation sets in the row. -/
def reobservedIncident (severity : IncidentSeverity) (observation : IncidentObservation)
    (evidenceJson : String) (timestamp : ℤ) (row : Incident) : Incident :=
  { row with
    severity := severity
    occurrences := row.occurrences + 1
    owner := observation.owner
    requiresAck := row.requiresAck || observation.requiresAck
    evidenceJson := evidenceJson
    updatedAt := timestamp
    version := row.version + 1 }

def isActive (incidentKey : String) (row : Incident) : Bool :=
  row.incidentKey = incidentKey && row.state ≠ .resolved

/-- The transaction of `observe`, with the identifier that a new incident gets. The result is the
identifier of the incident. -/
def observe (incidentId : String) (observation : IncidentObservation) (timestamp : ℤ)
    (actor : String) (database : Database) : Except String (String × Database) := do
  validateObservation observation
  let evidence := observation.evidence.getD []
  match database.incidents.find? (isActive observation.incidentKey) with
  | none =>
    let evidenceJson ← runtime.dumps (.dict evidence)
    if (database.find incidentId).isSome then
      throw "UNIQUE constraint failed: supervisor_incidents.incident_id"
    let inserted := database.insert (openedIncident incidentId observation evidenceJson timestamp)
    let next ← appendEvent runtime
      (⟨incidentId, timestamp, .observed, actor, none, .opened, "incident opened", ·⟩) evidence
      inserted
    return (incidentId, next)
  | some row =>
    let severity := row.severity.escalate observation.severity
    let merged := update (← decodeJson runtime row.evidenceJson) evidence
    let evidenceJson ← runtime.dumps (.dict merged)
    let updated := database.update row.incidentId
      (reobservedIncident severity observation evidenceJson timestamp)
    let next ← appendEvent runtime
      (⟨row.incidentId, timestamp, .reobserved, actor, some row.state, row.state,
        "active incident observed again", ·⟩) evidence updated
    return (row.incidentId, next)

def severityRank : IncidentSeverity → ℕ
  | .critical => 0
  | .warning => 1
  | .info => 2

/-- `ORDER BY` the severity, `opened_at` and `incident_id`. -/
def dueBefore (first second : Incident) : Prop :=
  severityRank first.severity < severityRank second.severity ∨
    (severityRank first.severity = severityRank second.severity ∧
      (first.openedAt < second.openedAt ∨
        (first.openedAt = second.openedAt ∧ first.incidentId ≤ second.incidentId)))

instance : DecidableRel dueBefore := fun first second ↦ by
  unfold dueBefore
  infer_instance

def isDue (timestamp : ℤ) (row : Incident) : Bool :=
  (row.state = .opened || row.state = .waiting) && (row.attemptCount : ℤ) < row.maxAttempts &&
    row.nextAttemptAt.all fun attemptAt ↦ attemptAt ≤ timestamp

def due (timestamp limit : ℤ) (database : Database) : Except String (List IncidentPayload) :=
  (((database.incidents.filter (isDue timestamp)).insertionSort dueBefore).take
    (max 1 limit).toNat).mapM (decode runtime)

/-- What a claim sets in the row. -/
def claimedIncident (now : ℤ) (row : Incident) : Incident :=
  { row with
    state := .recovering
    attemptCount := row.attemptCount + 1
    updatedAt := now
    version := row.version + 1 }

/-- The transaction of `_claim`, none if it is rolled back. -/
def claim (incidentId : String) (now : ℤ) (database : Database) :
    Except String (Option Database) := do
  match database.find incidentId with
  | none => return none
  | some row =>
    if row.state ≠ .opened ∧ row.state ≠ .waiting then return none
    if row.maxAttempts ≤ row.attemptCount then return none
    let next ← appendEvent runtime
      (⟨incidentId, now, .attemptStarted, "coordinator", some row.state, .recovering,
        "bounded recovery attempt started", ·⟩) [("attempt", .int (row.attemptCount + 1))]
      (database.update incidentId (claimedIncident now))
    return some next

/-- `requires_ack` of the row that an attempt goes by. -/
def Incident.needsAck (row : Incident) : Bool :=
  row.requiresAck || row.severity = .critical

/-- What an attempt makes of the incident. -/
structure Settlement where
  nextState : IncidentState
  nextAttemptAt : Option ℤ
  resolvedAt : Option ℤ
  evidence : Evidence

def attemptEvidence (current : IncidentPayload) (outcome : RecoveryResult) : Evidence :=
  assign (update current.evidence (outcome.evidence.getD [])) "invariants_proven"
    (.bool outcome.invariantsProven)

/-- `base * (2 ** max(0, attempts - 1))` up to the ceiling. A power that no double holds raises. -/
def backoffDelay (recipe : Option RecoveryRecipe) (attempts : ℕ) : Except String ℚ :=
  let base := recipe.elim 30 RecoveryRecipe.baseBackoffSeconds
  let ceiling := recipe.elim 1800 RecoveryRecipe.maxBackoffSeconds
  if 1024 ≤ attempts - 1 then throw "int too large to convert to float"
  else return min ceiling (base * 2 ^ (attempts - 1))

/-- The part of `_finish_attempt` before its transaction. -/
def settle (current : IncidentPayload) (outcome : RecoveryResult) (recipe : Option RecoveryRecipe)
    (now : ℤ) : Except String Settlement := do
  let evidence := attemptEvidence current outcome
  if outcome.success && outcome.invariantsProven then
    if current.row.needsAck || !recipe.any RecoveryRecipe.autoResolveAllowed then
      return ⟨.ackRequired, none, none, evidence⟩
    else
      return ⟨.resolved, none, some now, evidence⟩
  else if current.row.maxAttempts ≤ current.row.attemptCount then
    return ⟨.exhausted, none, none, evidence⟩
  else
    let delay ← backoffDelay recipe current.row.attemptCount
    let nextAttemptAt ← runtime.addSeconds now delay
    return ⟨.waiting, some nextAttemptAt, none, evidence⟩

/-- What a finished attempt sets in the row. -/
def settledIncident (settlement : Settlement) (outcome : RecoveryResult) (evidenceJson : String)
    (now : ℤ) (row : Incident) : Incident :=
  { row with
    state := settlement.nextState
    nextAttemptAt := settlement.nextAttemptAt
    lastError := if outcome.success then "" else outcome.note
    evidenceJson := evidenceJson
    resolvedAt := settlement.resolvedAt
    updatedAt := now
    version := row.version + 1 }

/-- The transaction of `_finish_attempt`. -/
def commitAttempt (incidentId : String) (outcome : RecoveryResult) (settlement : Settlement)
    (now : ℤ) (database : Database) : Except String Database := do
  let row ← orThrow (database.find incidentId) "incident is not in a recoverable claimed state"
  if row.state ≠ .recovering then throw "incident is not in a recoverable claimed state"
  let evidenceJson ← runtime.dumps (.dict settlement.evidence)
  appendEvent runtime
    (⟨incidentId, now, if outcome.success then .attemptSucceeded else .attemptFailed, "coordinator",
      some .recovering, settlement.nextState, outcome.note, ·⟩)
    (update [("invariants_proven", .bool outcome.invariantsProven)] (outcome.evidence.getD []))
    (database.update incidentId (settledIncident settlement outcome evidenceJson now))

/-- What an acknowledgement sets in the row. -/
def acknowledgedIncident (acknowledgedBy : String) (timestamp : ℤ) (row : Incident) : Incident :=
  { row with
    state := .resolved
    resolvedAt := some timestamp
    acknowledgedAt := some timestamp
    acknowledgedBy := acknowledgedBy
    updatedAt := timestamp
    version := row.version + 1 }

/-- The transaction of `acknowledge`. -/
def acknowledge (incidentId acknowledgedBy : String) (timestamp : ℤ) (note : String)
    (database : Database) : Except String Database := do
  if isMissing acknowledgedBy then throw "acknowledged_by is required"
  let row ← orThrow (database.find incidentId) "incident is not awaiting acknowledgement"
  if row.state ≠ .ackRequired then throw "incident is not awaiting acknowledgement"
  let evidence ← decodeJson runtime row.evidenceJson
  if !(Json.get evidence "invariants_proven").truthy then
    throw "cannot acknowledge without invariant proof"
  appendEvent runtime
    (⟨incidentId, timestamp, .acknowledged, acknowledgedBy, some .ackRequired, .resolved, note, ·⟩)
    [] (database.update incidentId (acknowledgedIncident acknowledgedBy timestamp))

/-- What a restart sets in a row whose recovery it interrupted. -/
def interruptedIncident (nextState : IncidentState) (nextAttemptAt : Option ℤ) (now : ℤ)
    (row : Incident) : Incident :=
  if row.state = .recovering then
    { row with
      state := nextState
      nextAttemptAt := nextAttemptAt
      lastError := "recovery interrupted by supervisor restart"
      updatedAt := now
      version := row.version + 1 }
  else row

/-- What the restart does for one of the rows that were being recovered. -/
def interruptAttempt (now : ℤ) (database : Database) (row : Incident) : Except String Database :=
  let exhausted := row.maxAttempts ≤ row.attemptCount
  let nextState := if exhausted then .exhausted else .waiting
  let nextAttemptAt := if exhausted then none else some now
  appendEvent runtime
    (⟨row.incidentId, now, .attemptInterrupted, "coordinator_startup", some .recovering, nextState,
      "claimed recovery was interrupted by supervisor restart", ·⟩)
    [("attempt", .int row.attemptCount), ("max_attempts", .int row.maxAttempts)]
    (database.update row.incidentId (interruptedIncident nextState nextAttemptAt now))

/-- `_recover_interrupted_attempts` -/
def recoverInterruptedAttempts (now : ℤ) (database : Database) : Except String Database :=
  (database.incidents.filter fun row ↦ row.state = .recovering).foldlM
    (interruptAttempt runtime now) database

end Transactions

/-! ### What a transaction does -/

/-- What a transaction is about: an observation with the names of its evidence, an attempt that is
claimed, one that is finished with the row it was decided by, and an acknowledgement. -/
inductive Occurrence where
  | observed (incidentId : String) (names : List String)
  | started (incidentId : String)
  | finished (incidentId : String) (current : IncidentPayload) (outcome : RecoveryResult)
      (recipe : Option RecoveryRecipe)
  | acknowledged (incidentId : String)
deriving DecidableEq

def Occurrence.incidentId : Occurrence → String
  | .observed incidentId _ | .started incidentId | .finished incidentId .. |
    .acknowledged incidentId => incidentId

/-- A reader gets a dictionary with the names that were written, and the empty dictionary can be
written. -/
structure Runtime.Lawful (runtime : Runtime) : Prop where
  dumps_empty : ∃ text, runtime.dumps (.dict []) = .ok text
  loads_dumps : ∀ entries text, runtime.dumps (.dict entries) = .ok text → text ≠ "" ∧
    ∃ read, runtime.loads text = .ok (.dict read) ∧ ∀ name, name ∈ keys read ↔ name ∈ keys entries

/-- The names of the evidence in a row. -/
def evidenceNames (runtime : Runtime) (row : Incident) : List String :=
  match decodeJson runtime row.evidenceJson with
  | .ok evidence => keys evidence
  | .error _ => []

section Changes

variable (runtime : Runtime)

/-- What a transaction can do to a row. -/
inductive RowChange (row : Incident) : Option Occurrence → Incident → Prop
  | kept {occurrence : Option Occurrence}
      (hother : ∀ about ∈ occurrence, about.incidentId ≠ row.incidentId) :
      RowChange row occurrence row
  | reobserved {evidence : Evidence} (observation : IncidentObservation) (evidenceJson : String)
      (timestamp : ℤ) (hactive : row.state ≠ .resolved)
      (hread : decodeJson runtime row.evidenceJson = .ok evidence)
      (hwritten : runtime.dumps (.dict (update evidence (observation.evidence.getD []))) =
        .ok evidenceJson) :
      RowChange row (some (.observed row.incidentId (keys (observation.evidence.getD []))))
        (reobservedIncident (row.severity.escalate observation.severity) observation evidenceJson
          timestamp row)
  | started (now : ℤ) (hstate : row.state = .opened ∨ row.state = .waiting)
      (hbudget : (row.attemptCount : ℤ) < row.maxAttempts) :
      RowChange row (some (.started row.incidentId)) (claimedIncident now row)
  | finished {settlement : Settlement} (current : IncidentPayload) (outcome : RecoveryResult)
      (recipe : Option RecoveryRecipe) (evidenceJson : String) (now : ℤ)
      (hstate : row.state = .recovering)
      (hsettle : settle runtime current outcome recipe now = .ok settlement)
      (hwritten : runtime.dumps (.dict settlement.evidence) = .ok evidenceJson) :
      RowChange row (some (.finished row.incidentId current outcome recipe))
        (settledIncident settlement outcome evidenceJson now row)
  | acknowledged (acknowledgedBy : String) (timestamp : ℤ) (hstate : row.state = .ackRequired) :
      RowChange row (some (.acknowledged row.incidentId))
        (acknowledgedIncident acknowledgedBy timestamp row)
  | interrupted {nextState : IncidentState} (nextAttemptAt : Option ℤ) (now : ℤ)
      (hstate : row.state = .recovering) (hnext : nextState = .waiting ∨ nextState = .exhausted) :
      RowChange row none (interruptedIncident nextState nextAttemptAt now row)

/-- An entry of the trail for an observation that came while the incident awaited its
acknowledgement. -/
def IncidentEvent.isLateObservation (incidentId : String) (event : IncidentEvent) : Prop :=
  event.incidentId = incidentId ∧ event.eventType = .reobserved ∧
    event.priorState = some .ackRequired

instance (incidentId : String) (event : IncidentEvent) :
    Decidable (event.isLateObservation incidentId) := by
  unfold IncidentEvent.isLateObservation
  infer_instance

/-- What a transaction can do to the database: it changes rows, opens at most one incident and adds
to the trail. -/
inductive Writes (database : Database) (occurrence : Option Occurrence) : Database → Prop
  | mk (change : Incident → Incident) (opened : Option Incident) (added : List IncidentEvent)
      (hchange : ∀ row ∈ database.incidents, RowChange runtime row occurrence (change row))
      (hopened : ∀ row ∈ opened, database.find row.incidentId = none ∧ row.state = .opened ∧
        row.attemptCount = 0 ∧ 1 ≤ row.maxAttempts ∧
        ∃ evidence, occurrence = some (.observed row.incidentId (keys evidence)) ∧
          runtime.dumps (.dict evidence) = .ok row.evidenceJson)
      (habout : ∀ about ∈ occurrence,
        (∃ row ∈ database.incidents, row.incidentId = about.incidentId) ∨
          ∃ row ∈ opened, row.incidentId = about.incidentId)
      (hknown : ∀ event ∈ added, (∃ row ∈ database.incidents, row.incidentId = event.incidentId) ∨
        ∃ row ∈ opened, row.incidentId = event.incidentId)
      (hlate : ∀ incidentId, (∃ event ∈ added, event.isLateObservation incidentId) ↔
        ∃ row ∈ database.incidents, row.incidentId = incidentId ∧ row.state = .ackRequired ∧
          ∃ names, occurrence = some (.observed incidentId names)) :
      Writes database occurrence
        ⟨database.incidents.map change ++ opened.toList, database.events ++ added⟩

end Changes

section Effects

variable {runtime : Runtime}

/-- No two incidents have the same identifier. -/
def Database.Keyed (database : Database) : Prop :=
  (database.incidents.map Incident.incidentId).Nodup

theorem Database.mem_of_find {database : Database} {incidentId : String} {row : Incident}
    (hfind : database.find incidentId = some row) :
    row ∈ database.incidents ∧ row.incidentId = incidentId := by
  unfold Database.find at hfind
  exact ⟨List.mem_of_find?_eq_some hfind, by simpa using List.find?_some hfind⟩

theorem Database.Keyed.find_eq {database : Database} (hkeyed : database.Keyed) {row : Incident}
    (hrow : row ∈ database.incidents) : database.find row.incidentId = some row := by
  cases hfind : database.find row.incidentId with
  | none =>
    have := List.find?_eq_none.mp hfind row hrow
    simp at this
  | some found =>
    obtain ⟨hfound, hid⟩ := Database.mem_of_find hfind
    rw [List.inj_on_of_nodup_map hkeyed hfound hrow hid]

theorem Database.find_eq_none {database : Database} {incidentId : String} :
    database.find incidentId = none ↔ ∀ row ∈ database.incidents, row.incidentId ≠ incidentId := by
  simp [Database.find, List.find?_eq_none]

theorem RowChange.incidentId_eq {row next : Incident} {occurrence : Option Occurrence}
    (hchange : RowChange runtime row occurrence next) : next.incidentId = row.incidentId := by
  cases hchange with
  | interrupted => unfold interruptedIncident; split <;> rfl
  | _ => rfl

/-- The rows after a transaction are the rows before it, changed, and the row it opened. -/
theorem find_changed {rows : List Incident} {change : Incident → Incident}
    {opened : Option Incident} {events : List IncidentEvent}
    (hsame : ∀ row ∈ rows, (change row).incidentId = row.incidentId) (incidentId : String) :
    Database.find ⟨rows.map change ++ opened.toList, events⟩ incidentId =
      ((Database.find ⟨rows, events⟩ incidentId).map change).or
        (opened.filter fun row ↦ row.incidentId = incidentId) := by
  unfold Database.find
  rw [List.find?_append]
  congr 1
  · rw [List.find?_map]
    congr 1
    refine List.find?_congr fun row hrow ↦ ?_
    simp only [Function.comp_apply, hsame row hrow]
  · cases opened <;> simp [Option.filter]

section Consequences

variable {database next : Database} {occurrence : Option Occurrence}

/-- What happens to a row in a transaction. -/
theorem Writes.row (hwrites : Writes runtime database occurrence next) {incidentId : String}
    {row : Incident} (hfind : database.find incidentId = some row) :
    ∃ after, next.find incidentId = some after ∧ RowChange runtime row occurrence after := by
  obtain ⟨change, opened, added, hchange, -, -, -, -⟩ := hwrites
  refine ⟨change row, ?_, hchange row (Database.mem_of_find hfind).1⟩
  rw [find_changed fun row hrow ↦ (hchange row hrow).incidentId_eq]
  simp only [Database.find] at hfind ⊢
  rw [hfind]
  rfl

/-- Where a row of the database after a transaction comes from. -/
theorem Writes.origin (hwrites : Writes runtime database occurrence next) {incidentId : String}
    {after : Incident} (hfind : next.find incidentId = some after) :
    (∃ row, database.find incidentId = some row ∧ RowChange runtime row occurrence after) ∨
      (database.find incidentId = none ∧ after.state = .opened ∧ after.attemptCount = 0 ∧
        1 ≤ after.maxAttempts ∧ ∃ evidence,
          occurrence = some (.observed incidentId (keys evidence)) ∧
            runtime.dumps (.dict evidence) = .ok after.evidenceJson) := by
  cases hbefore : database.find incidentId with
  | some row =>
    obtain ⟨found, hfound, hchange⟩ := hwrites.row hbefore
    rw [hfind, Option.some.injEq] at hfound
    rw [← hfound] at hchange
    exact .inl ⟨row, rfl, hchange⟩
  | none =>
    right
    obtain ⟨change, opened, added, hchange, hopened, -, -, -⟩ := hwrites
    rw [find_changed fun row hrow ↦ (hchange row hrow).incidentId_eq] at hfind
    simp only [Database.find] at hbefore hfind
    rw [hbefore, Option.map_none, Option.none_or, Option.filter_eq_some_iff] at hfind
    obtain ⟨hmem, hid⟩ := hfind
    have hid : after.incidentId = incidentId := of_decide_eq_true hid
    obtain ⟨-, hstate, hcount, hmax, hevidence⟩ := hopened after hmem
    rw [hid] at hevidence
    exact ⟨rfl, hstate, hcount, hmax, hevidence⟩

/-- No incident is removed. -/
theorem Writes.recorded (hwrites : Writes runtime database occurrence next) {incidentId : String}
    (hrow : ∃ row ∈ database.incidents, row.incidentId = incidentId) :
    ∃ row ∈ next.incidents, row.incidentId = incidentId := by
  obtain ⟨change, opened, added, hchange, -, -, -, -⟩ := hwrites
  obtain ⟨row, hmem, hid⟩ := hrow
  exact ⟨change row, List.mem_append_left _ (List.mem_map_of_mem hmem),
    (hchange row hmem).incidentId_eq.trans hid⟩

/-- A transaction is about an incident of the database that it leaves. -/
theorem Writes.find_about (hwrites : Writes runtime database occurrence next) {about : Occurrence}
    (habout : about ∈ occurrence) : ∃ row, next.find about.incidentId = some row := by
  rw [← Option.ne_none_iff_exists']
  intro hnone
  rw [Database.find_eq_none] at hnone
  obtain ⟨change, opened, added, hchange, -, hrows, -, -⟩ := hwrites
  rcases hrows about habout with ⟨row, hrow, hid⟩ | ⟨row, hrow, hid⟩
  · exact hnone (change row) (List.mem_append_left _ (List.mem_map_of_mem hrow))
      ((hchange row hrow).incidentId_eq.trans hid)
  · refine hnone row (List.mem_append_right _ ?_) hid
    rw [hrow]
    exact List.mem_singleton_self row

/-- The incident was observed while it awaited its acknowledgement. -/
def Database.Late (database : Database) (incidentId : String) : Prop :=
  ∃ event ∈ database.events, event.isLateObservation incidentId

instance (database : Database) (incidentId : String) : Decidable (database.Late incidentId) := by
  unfold Database.Late
  infer_instance

theorem Writes.late (hwrites : Writes runtime database occurrence next)
    (hkeyed : database.Keyed) (incidentId : String) :
    next.Late incidentId ↔ database.Late incidentId ∨
      ∃ row ∈ database.find incidentId, row.state = .ackRequired ∧
        ∃ names, occurrence = some (.observed incidentId names) := by
  obtain ⟨change, opened, added, -, -, -, -, hlate⟩ := hwrites
  simp only [Database.Late, List.mem_append, or_and_right, exists_or, hlate]
  refine or_congr Iff.rfl ⟨?_, ?_⟩
  · rintro ⟨row, hrow, rfl, hstate, hnames⟩
    exact ⟨row, hkeyed.find_eq hrow, hstate, hnames⟩
  · rintro ⟨row, hrow, hstate, hnames⟩
    obtain ⟨hmem, hid⟩ := Database.mem_of_find hrow
    exact ⟨row, hmem, hid, hstate, hnames⟩

theorem Writes.keyed (hwrites : Writes runtime database occurrence next)
    (hkeyed : database.Keyed) : next.Keyed := by
  obtain ⟨change, opened, added, hchange, hopened, -, -, -⟩ := hwrites
  have hids : (database.incidents.map change).map Incident.incidentId =
      database.incidents.map Incident.incidentId := by
    rw [List.map_map]
    exact List.map_congr_left fun row hrow ↦ (hchange row hrow).incidentId_eq
  unfold Database.Keyed
  rw [List.map_append, hids]
  cases opened with
  | none => simpa [Database.Keyed] using hkeyed
  | some row =>
    have hfresh := Database.find_eq_none.mp (hopened row rfl).1
    refine List.Nodup.append hkeyed (List.nodup_singleton _) ?_
    simpa using hfresh

/-- Every entry of the trail is about an incident. -/
def Database.Known (database : Database) : Prop :=
  ∀ event ∈ database.events, database.find event.incidentId ≠ none

theorem Writes.known (hwrites : Writes runtime database occurrence next)
    (hknown : database.Known) : next.Known := by
  intro event hevent hnone
  have hrow : ∀ row ∈ database.incidents, row.incidentId ≠ event.incidentId := by
    rw [← Database.find_eq_none]
    cases hbefore : database.find event.incidentId with
    | none => rfl
    | some row =>
      obtain ⟨after, hafter, -⟩ := hwrites.row hbefore
      rw [hnone] at hafter
      cases hafter
  obtain ⟨change, opened, added, hchange, hopened, -, hadded, -⟩ := hwrites
  rcases List.mem_append.mp hevent with hold | hnew
  · exact hknown event hold (Database.find_eq_none.mpr hrow)
  · rcases hadded event hnew with ⟨row, hmem, hid⟩ | ⟨row, hmem, hid⟩
    · exact hrow row hmem hid
    · refine Database.find_eq_none.mp hnone row ?_ hid
      rw [hmem]
      simp

end Consequences

/-! ### The transactions -/

theorem appendEvent_eq_ok {event : String → IncidentEvent} {details : Evidence}
    {database next : Database} :
    appendEvent runtime event details database = .ok next ↔
      ∃ text, runtime.dumps (.dict details) = .ok text ∧
        ⟨database.incidents, database.events ++ [event text]⟩ = next := by
  simp only [appendEvent, bind_eq_ok, pure_eq_ok]

/-- A transaction that changes one row and adds an entry about it. -/
theorem writes_update {database : Database} (hkeyed : database.Keyed) {incidentId : String}
    {row : Incident} (hfind : database.find incidentId = some row) {occurrence : Option Occurrence}
    (habout : ∀ about ∈ occurrence, about.incidentId = incidentId) {change : Incident → Incident}
    (hchange : RowChange runtime row occurrence (change row)) {event : IncidentEvent}
    (hevent : event.incidentId = incidentId)
    (hlate : event.isLateObservation incidentId ↔
      row.state = .ackRequired ∧ ∃ names, occurrence = some (.observed incidentId names)) :
    Writes runtime database occurrence
      ⟨(database.update incidentId change).incidents, database.events ++ [event]⟩ := by
  obtain ⟨hrow, hid⟩ := Database.mem_of_find hfind
  have hunique : ∀ other ∈ database.incidents, other.incidentId = incidentId → other = row := by
    intro other hother hsame
    exact List.inj_on_of_nodup_map hkeyed hother hrow (hsame.trans hid.symm)
  have hwrites : Writes runtime database occurrence
      ⟨database.incidents.map (fun row ↦ if row.incidentId = incidentId then change row else row) ++
        (none : Option Incident).toList, database.events ++ [event]⟩ := by
    refine .mk _ none [event] (fun other hother ↦ ?_) (by simp)
      (fun about hmem ↦ .inl ⟨row, hrow, hid.trans (habout about hmem).symm⟩) ?_ fun other ↦ ?_
    · split_ifs with hsame
      · rw [hunique other hother hsame]
        exact hchange
      · exact .kept fun about hmem hequal ↦ hsame (hequal.symm.trans (habout about hmem))
    · simp only [List.mem_singleton, forall_eq]
      exact .inl ⟨row, hrow, hid.trans hevent.symm⟩
    · simp only [List.mem_singleton, exists_eq_left]
      by_cases hother : other = incidentId
      · rw [hother, hlate]
        constructor
        · rintro ⟨hstate, hnames⟩
          exact ⟨row, hrow, hid, hstate, hnames⟩
        · rintro ⟨found, hfound, hsame, hstate, hnames⟩
          rw [hunique found hfound hsame] at hstate
          exact ⟨hstate, hnames⟩
      · constructor
        · rintro ⟨hsame, -⟩
          exact absurd (hsame.symm.trans hevent) hother
        · rintro ⟨-, -, -, -, names, rfl⟩
          exact absurd (habout _ rfl) hother
  rwa [Option.toList_none, List.append_nil] at hwrites

theorem maxAttempts_of_valid {observation : IncidentObservation}
    (hvalid : validateObservation observation = .ok ()) : 1 ≤ observation.maxAttempts := by
  simp only [validateObservation, throw_bind, check_eq_ok] at hvalid
  exact not_lt.mp hvalid.2.2.2.2.1

theorem observe_writes {database next : Database} (hkeyed : database.Keyed)
    {newId incidentId actor : String} {observation : IncidentObservation} {timestamp : ℤ}
    (hobserve : observe runtime newId observation timestamp actor database =
      .ok (incidentId, next)) :
    Writes runtime database
      (some (.observed incidentId (keys (observation.evidence.getD [])))) next := by
  simp only [observe, bind_eq_ok] at hobserve
  obtain ⟨_, hvalid, hobserve⟩ := hobserve
  split at hobserve
  · simp only [bind_eq_ok, check_eq_ok, throw_bind, pure_eq_ok, appendEvent_eq_ok,
      Prod.mk.injEq] at hobserve
    obtain ⟨evidenceJson, hwritten, hfresh, -, ⟨text, -, rfl⟩, rfl, rfl⟩ := hobserve
    rw [Option.not_isSome_iff_eq_none] at hfresh
    have hunknown := Database.find_eq_none.mp hfresh
    have hwrites : Writes runtime database
        (some (.observed newId (keys (observation.evidence.getD []))))
        ⟨database.incidents.map id ++
          (some (openedIncident newId observation evidenceJson timestamp)).toList,
          database.events ++ [⟨newId, timestamp, .observed, actor, none, .opened, "incident opened",
            text⟩]⟩ := by
      refine .mk id _ _ (fun row hrow ↦ .kept ?_) ?_ ?_ ?_ fun other ↦ ?_
      · rintro _ ⟨⟩
        exact (hunknown row hrow).symm
      · rintro _ ⟨⟩
        exact ⟨hfresh, rfl, rfl, maxAttempts_of_valid hvalid, _, rfl, hwritten⟩
      · rintro _ ⟨⟩
        exact .inr ⟨_, rfl, rfl⟩
      · simp [openedIncident]
      · constructor
        · simp [IncidentEvent.isLateObservation]
        · rintro ⟨row, hrow, rfl, -, names, hsame⟩
          injection hsame with hsame
          injection hsame with hsame
          exact absurd hsame.symm (hunknown row hrow)
    rwa [List.map_id] at hwrites
  · rename_i row hrow
    simp only [bind_eq_ok, pure_eq_ok, appendEvent_eq_ok, Prod.mk.injEq] at hobserve
    obtain ⟨evidence, hread, evidenceJson, hwritten, -, ⟨text, -, rfl⟩, rfl, rfl⟩ := hobserve
    have hmem := List.mem_of_find?_eq_some hrow
    have hactive : row.state ≠ .resolved := by
      have hfound := List.find?_some hrow
      simp only [isActive, Bool.and_eq_true, decide_eq_true_eq] at hfound
      exact hfound.2
    refine writes_update hkeyed (hkeyed.find_eq hmem) (by simp [Occurrence.incidentId])
      (.reobserved observation evidenceJson timestamp hactive hread hwritten) rfl ?_
    simp [IncidentEvent.isLateObservation]

theorem claim_writes {database next : Database} (hkeyed : database.Keyed) {incidentId : String}
    {now : ℤ} (hclaim : claim runtime incidentId now database = .ok (some next)) :
    Writes runtime database (some (.started incidentId)) next := by
  unfold claim at hclaim
  split at hclaim
  · cases hclaim
  · rename_i row hfind
    obtain ⟨-, rfl⟩ := Database.mem_of_find hfind
    by_cases hstate : row.state ≠ .opened ∧ row.state ≠ .waiting
    · rw [if_pos hstate] at hclaim
      cases hclaim
    rw [if_neg hstate] at hclaim
    by_cases hbudget : row.maxAttempts ≤ row.attemptCount
    · rw [if_pos hbudget] at hclaim
      cases hclaim
    rw [if_neg hbudget] at hclaim
    simp only [bind_eq_ok, pure_eq_ok, appendEvent_eq_ok, Option.some.injEq] at hclaim
    obtain ⟨-, ⟨text, -, rfl⟩, rfl⟩ := hclaim
    refine writes_update hkeyed hfind (by simp [Occurrence.incidentId])
      (.started now ?_ (not_le.mp hbudget)) rfl (by simp [IncidentEvent.isLateObservation])
    rwa [← not_or, not_not] at hstate

theorem commitAttempt_writes {database next : Database} (hkeyed : database.Keyed)
    {incidentId : String} {current : IncidentPayload} {outcome : RecoveryResult}
    {recipe : Option RecoveryRecipe} {settlement : Settlement} {now : ℤ}
    (hsettle : settle runtime current outcome recipe now = .ok settlement)
    (hcommit : commitAttempt runtime incidentId outcome settlement now database = .ok next) :
    Writes runtime database (some (.finished incidentId current outcome recipe)) next := by
  simp only [commitAttempt, bind_eq_ok, orThrow_eq_ok, check_eq_ok, throw_bind,
    appendEvent_eq_ok] at hcommit
  obtain ⟨row, hfind, hstate, evidenceJson, hwritten, text, -, rfl⟩ := hcommit
  obtain ⟨-, rfl⟩ := Database.mem_of_find hfind
  refine writes_update hkeyed hfind (by simp [Occurrence.incidentId])
    (.finished current outcome recipe evidenceJson now (not_not.mp hstate) hsettle hwritten) rfl ?_
  simp [IncidentEvent.isLateObservation]

theorem acknowledge_eq_ok {database next : Database}
    {incidentId acknowledgedBy note : String} {timestamp : ℤ} :
    acknowledge runtime incidentId acknowledgedBy timestamp note database = .ok next ↔
      isMissing acknowledgedBy = false ∧ ∃ row, database.find incidentId = some row ∧
        row.state = .ackRequired ∧ ∃ evidence, decodeJson runtime row.evidenceJson = .ok evidence ∧
          (Json.get evidence "invariants_proven").truthy = true ∧
          ∃ text, runtime.dumps (.dict []) = .ok text ∧
            ⟨(database.update incidentId (acknowledgedIncident acknowledgedBy timestamp)).incidents,
              database.events ++ [⟨incidentId, timestamp, .acknowledged, acknowledgedBy,
                some .ackRequired, .resolved, note, text⟩]⟩ = next := by
  simp only [acknowledge, bind_eq_ok, orThrow_eq_ok, check_eq_ok, throw_bind, appendEvent_eq_ok,
    not_not, Bool.not_eq_true, Bool.not_eq_false']
  rfl

theorem acknowledge_writes {database next : Database} (hkeyed : database.Keyed)
    {incidentId acknowledgedBy note : String} {timestamp : ℤ}
    (hacknowledge : acknowledge runtime incidentId acknowledgedBy timestamp note database =
      .ok next) :
    Writes runtime database (some (.acknowledged incidentId)) next := by
  obtain ⟨-, row, hfind, hstate, -, -, -, text, -, rfl⟩ := acknowledge_eq_ok.mp hacknowledge
  obtain ⟨-, rfl⟩ := Database.mem_of_find hfind
  exact writes_update hkeyed hfind (by simp [Occurrence.incidentId])
    (.acknowledged acknowledgedBy timestamp hstate) rfl (by simp [IncidentEvent.isLateObservation])

/-! ### The restart -/

theorem writes_nothing (database : Database) : Writes runtime database none database := by
  have hwrites : Writes runtime database none
      ⟨database.incidents.map id ++ (none : Option Incident).toList, database.events ++ []⟩ :=
    .mk id none [] (fun row _ ↦ .kept (by simp)) (by simp) (by simp) (by simp) (by simp)
  simpa using hwrites

theorem RowChange.trans {first second third : Incident}
    (hfirst : RowChange runtime first none second)
    (hsecond : RowChange runtime second none third) : RowChange runtime first none third := by
  cases hfirst with
  | kept => exact hsecond
  | interrupted nextAttemptAt now hstate hnext =>
    cases hsecond with
    | kept => exact .interrupted nextAttemptAt now hstate hnext
    | interrupted _ _ hagain _ =>
      rw [interruptedIncident, if_pos hstate] at hagain
      rcases hnext with rfl | rfl <;> cases hagain

theorem Writes.trans {first second third : Database} (hfirst : Writes runtime first none second)
    (hsecond : Writes runtime second none third) : Writes runtime first none third := by
  obtain ⟨change, opened, added, hchange, hopened, -, hknown, hlate⟩ := hfirst
  obtain ⟨further, others, more, hfurther, hothers, -, hmore, hlater⟩ := hsecond
  -- A transaction that is not about an observation opens no incident.
  obtain rfl : opened = none := by
    cases opened with
    | none => rfl
    | some row =>
      obtain ⟨-, -, -, -, _, habout, -⟩ := hopened row rfl
      cases habout
  obtain rfl : others = none := by
    cases others with
    | none => rfl
    | some row =>
      obtain ⟨-, -, -, -, _, habout, -⟩ := hothers row rfl
      cases habout
  simp only [Option.toList_none, List.append_nil, List.mem_map, forall_exists_index, and_imp,
    forall_apply_eq_imp_iff₂] at hfurther
  have hwrites : Writes runtime first none
      ⟨first.incidents.map (further ∘ change) ++ (none : Option Incident).toList,
        first.events ++ (added ++ more)⟩ := by
    refine .mk (further ∘ change) none (added ++ more)
      (fun row hrow ↦ (hchange row hrow).trans (hfurther row hrow)) (by simp) (by simp) ?_ ?_
    · intro event hevent
      rcases List.mem_append.mp hevent with hevent | hevent
      · exact hknown event hevent
      · rcases hmore event hevent with ⟨row, hrow, hid⟩ | hrow
        · simp only [Option.toList_none, List.append_nil, List.mem_map] at hrow
          obtain ⟨row, hrow, rfl⟩ := hrow
          exact .inl ⟨row, hrow, (hchange row hrow).incidentId_eq.symm.trans hid⟩
        · exact .inr hrow
    · intro incidentId
      simp only [List.mem_append, or_and_right, exists_or, hlate, hlater]
      simp
  simpa using hwrites

theorem interruptAttempt_writes {database next : Database} {now : ℤ} {row : Incident}
    (hrow : ∃ known ∈ database.incidents, known.incidentId = row.incidentId)
    (hinterrupt : interruptAttempt runtime now database row = .ok next) :
    Writes runtime database none next := by
  simp only [interruptAttempt, appendEvent_eq_ok] at hinterrupt
  obtain ⟨text, -, rfl⟩ := hinterrupt
  set nextState : IncidentState :=
    if row.maxAttempts ≤ row.attemptCount then .exhausted else .waiting with hnext
  set nextAttemptAt := if row.maxAttempts ≤ row.attemptCount then none else some now
  have hwrites : Writes runtime database none
      ⟨database.incidents.map (fun other ↦ if other.incidentId = row.incidentId then
          interruptedIncident nextState nextAttemptAt now other else other) ++
        (none : Option Incident).toList,
        database.events ++ [⟨row.incidentId, now, .attemptInterrupted, "coordinator_startup",
          some .recovering, nextState, "claimed recovery was interrupted by supervisor restart",
          text⟩]⟩ := by
    refine .mk _ none _ (fun other _ ↦ ?_) (by simp) (by simp) ?_ fun incidentId ↦ ?_
    · by_cases hstate : other.incidentId = row.incidentId ∧ other.state = .recovering
      · rw [if_pos hstate.1]
        refine .interrupted nextAttemptAt now hstate.2 ?_
        rw [hnext]
        split_ifs
        · exact .inr rfl
        · exact .inl rfl
      · have hsame : (if other.incidentId = row.incidentId then
            interruptedIncident nextState nextAttemptAt now other else other) = other := by
          rw [ite_eq_right_iff]
          intro hid
          rw [interruptedIncident, if_neg fun hrecovering ↦ hstate ⟨hid, hrecovering⟩]
        rw [hsame]
        exact .kept (by simp)
    · simpa using hrow
    · simp [IncidentEvent.isLateObservation]
  rwa [Option.toList_none, List.append_nil] at hwrites

theorem foldlM_interruptAttempt_writes {rows : List Incident} {database next : Database} {now : ℤ}
    (hrows : ∀ row ∈ rows, ∃ known ∈ database.incidents, known.incidentId = row.incidentId)
    (hfold : rows.foldlM (interruptAttempt runtime now) database = .ok next) :
    Writes runtime database none next := by
  induction rows generalizing database with
  | nil =>
    cases hfold
    exact writes_nothing _
  | cons row rest ih =>
    simp only [List.foldlM_cons, bind_eq_ok] at hfold
    obtain ⟨middle, hmiddle, hfold⟩ := hfold
    have hwrites := interruptAttempt_writes (hrows row List.mem_cons_self) hmiddle
    refine hwrites.trans (ih (fun other hother ↦ ?_) hfold)
    exact hwrites.recorded (hrows other (List.mem_cons_of_mem _ hother))

theorem recoverInterruptedAttempts_writes {database next : Database} {now : ℤ}
    (hrecover : recoverInterruptedAttempts runtime now database = .ok next) :
    Writes runtime database none next := by
  refine foldlM_interruptAttempt_writes (fun row hrow ↦ ?_) hrecover
  exact ⟨row, (List.mem_filter.mp hrow).1, rfl⟩

end Effects

end Bongus.Supervisor
