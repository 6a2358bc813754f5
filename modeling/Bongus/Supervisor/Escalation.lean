import Bongus.Supervisor.Coordinators

/-!
# Escalation during a recovery

An incident that is critical, or that an observation wants acknowledged, is resolved by
`acknowledge` only, and evidence that was observed stays. Both fail when an observation comes
between the query by which an attempt is finished and the transaction that writes the result: the
result is that of the row before the observation, and it replaces the evidence
(`escalation_overwritten`).

`acknowledged_before_resolved` shows both for every interleaving in which the row that a finished
attempt overwrites asks for nothing, and has no evidence, that the row it was decided by did not
have (`Covers`).
-/

set_option autoImplicit false
set_option relaxedAutoImplicit false

namespace Bongus.Supervisor

open Lib.Dictionary Lib.Documents Lib.Fallible Lib.Runs

section Properties

variable {Coordinator : Type} [DecidableEq Coordinator] (runtime : Runtime)

/-- The incident is resolved after the step and was not before. -/
def Resolves (before after : Database) (incidentId : String) : Prop :=
  (∀ row ∈ before.find incidentId, row.state ≠ .resolved) ∧
    ∃ row ∈ after.find incidentId, row.state = .resolved

/-- The incident has to be acknowledged. -/
def NeedsAck (database : Database) (incidentId : String) : Prop :=
  ∃ row ∈ database.find incidentId, row.needsAck = true

/-- The evidence about the incident has the name. -/
def HasEvidence (database : Database) (incidentId name : String) : Prop :=
  ∃ row ∈ database.find incidentId, name ∈ evidenceNames runtime row

/-- When a step finishes an attempt, the row it writes over has to be acknowledged only if the row
that was read had to, and has no evidence but that of the row that was read and of the attempt. -/
def Covers (system : System Coordinator) : Event Coordinator → Prop
  | .advance coordinator =>
    match (system.coordinators coordinator).call with
    | .committing attempt outcome current =>
      ∀ row ∈ system.database.find attempt.incidentId,
        (outcome.success = true → outcome.invariantsProven = true →
          attempt.recipe.any RecoveryRecipe.autoResolveAllowed = true →
            row.needsAck = true → current.row.needsAck = true) ∧
        ∀ name ∈ evidenceNames runtime row, name ∈ keys current.evidence ∨
          name ∈ keys (outcome.evidence.getD []) ∨ name = "invariants_proven"
    | _ => True
  | _ => True

instance (before after : Database) (incidentId : String) :
    Decidable (Resolves before after incidentId) := by
  unfold Resolves
  infer_instance

instance (database : Database) (incidentId : String) :
    Decidable (NeedsAck database incidentId) := by
  unfold NeedsAck
  infer_instance

instance (database : Database) (incidentId name : String) :
    Decidable (HasEvidence runtime database incidentId name) := by
  unfold HasEvidence
  infer_instance

instance (system : System Coordinator) (event : Event Coordinator) :
    Decidable (Covers runtime system event) := by
  unfold Covers
  split
  · split
    · infer_instance
    · infer_instance
  · infer_instance

end Properties

section Rows

variable {runtime : Runtime} {row after : Incident} {occurrence : Option Occurrence}

theorem RowChange.needsAck (hchange : RowChange runtime row occurrence after)
    (hneeds : row.needsAck = true) : after.needsAck = true := by
  cases hchange with
  | reobserved observation =>
    simp only [Incident.needsAck, reobservedIncident, Bool.or_eq_true, decide_eq_true_eq]
      at hneeds ⊢
    rcases hneeds with hack | hcritical
    · exact .inl (.inl hack)
    · right
      rw [hcritical]
      cases observation.severity <;> rfl
  | interrupted _ _ hstate =>
    rw [interruptedIncident, if_pos hstate]
    exact hneeds
  | _ => exact hneeds

/-- A row that is written over by a finished attempt asks for what it asked for before. -/
theorem RowChange.needsAck_of_finished {incidentId : String} {current : IncidentPayload}
    {outcome : RecoveryResult} {recipe : Option RecoveryRecipe}
    (hchange : RowChange runtime row (some (.finished incidentId current outcome recipe)) after)
    (hneeds : after.needsAck = true) : row.needsAck = true := by
  cases hchange <;> exact hneeds

/-- An attempt resolves the incident only if the row that was read allows it. -/
theorem settle_resolved {current : IncidentPayload} {outcome : RecoveryResult}
    {recipe : Option RecoveryRecipe} {now : ℤ} {settlement : Settlement}
    (hsettle : settle runtime current outcome recipe now = .ok settlement)
    (hresolved : settlement.nextState = .resolved) :
    outcome.success = true ∧ outcome.invariantsProven = true ∧ current.row.needsAck = false ∧
      recipe.any RecoveryRecipe.autoResolveAllowed = true := by
  unfold settle at hsettle
  by_cases hproven : (outcome.success && outcome.invariantsProven) = true
  · rw [if_pos hproven] at hsettle
    by_cases hack : (current.row.needsAck ||
        !recipe.any RecoveryRecipe.autoResolveAllowed) = true
    · rw [if_pos hack] at hsettle
      cases hsettle
      cases hresolved
    · simp only [Bool.or_eq_true, Bool.not_eq_true', not_or, Bool.not_eq_true,
        Bool.not_eq_false] at hack
      rw [Bool.and_eq_true] at hproven
      exact ⟨hproven.1, hproven.2, hack⟩
  · rw [if_neg hproven] at hsettle
    split_ifs at hsettle
    · cases hsettle
      cases hresolved
    · simp only [bind_eq_ok, pure_eq_ok] at hsettle
      obtain ⟨_, -, _, -, rfl⟩ := hsettle
      cases hresolved

/-- What a row was resolved by. -/
theorem RowChange.resolved (hchange : RowChange runtime row occurrence after)
    (hbefore : row.state ≠ .resolved) (hafter : after.state = .resolved) :
    occurrence = some (.acknowledged row.incidentId) ∨
      ∃ current outcome recipe,
        occurrence = some (.finished row.incidentId current outcome recipe) ∧
        outcome.success = true ∧ outcome.invariantsProven = true ∧
        current.row.needsAck = false ∧ recipe.any RecoveryRecipe.autoResolveAllowed = true := by
  cases hchange with
  | kept => exact absurd hafter hbefore
  | reobserved => exact absurd hafter hbefore
  | started => cases hafter
  | finished current outcome recipe _ _ _ hsettle =>
    exact .inr ⟨current, outcome, recipe, rfl, settle_resolved hsettle hafter⟩
  | acknowledged => exact .inl rfl
  | interrupted _ _ hstate hnext =>
    rw [interruptedIncident, if_pos hstate] at hafter
    rcases hnext with rfl | rfl <;> cases hafter

/-- A row has the names of the evidence that was written to it. -/
theorem mem_evidenceNames_of_written (hlaw : runtime.Lawful) {evidence : Evidence}
    (hwritten : runtime.dumps (.dict evidence) = .ok row.evidenceJson) {name : String} :
    name ∈ evidenceNames runtime row ↔ name ∈ keys evidence := by
  obtain ⟨hsome, read, hread, hnames⟩ := hlaw.loads_dumps evidence _ hwritten
  have hdecode : decodeJson runtime row.evidenceJson = .ok read := by
    rw [decodeJson, if_neg hsome, hread]
    rfl
  rw [evidenceNames, hdecode]
  exact hnames name

theorem mem_keys_attemptEvidence {current : IncidentPayload} {outcome : RecoveryResult}
    {name : String} :
    name ∈ keys (attemptEvidence current outcome) ↔ name ∈ keys current.evidence ∨
      name ∈ keys (outcome.evidence.getD []) ∨ name = "invariants_proven" := by
  rw [attemptEvidence, mem_keys_assign, mem_keys_update, or_comm, or_assoc]

theorem settle_evidence {current : IncidentPayload} {outcome : RecoveryResult}
    {recipe : Option RecoveryRecipe} {now : ℤ} {settlement : Settlement}
    (hsettle : settle runtime current outcome recipe now = .ok settlement) :
    settlement.evidence = attemptEvidence current outcome := by
  unfold settle at hsettle
  split_ifs at hsettle
  · cases hsettle
    rfl
  · cases hsettle
    rfl
  · cases hsettle
    rfl
  · simp only [bind_eq_ok, pure_eq_ok] at hsettle
    obtain ⟨_, -, _, -, rfl⟩ := hsettle
    rfl

/-- The evidence of a row keeps its names, unless an attempt is finished that does not know them. -/
theorem RowChange.names (hlaw : runtime.Lawful) (hchange : RowChange runtime row occurrence after)
    {name : String}
    (hcovered : ∀ current outcome recipe,
      occurrence = some (.finished row.incidentId current outcome recipe) →
        name ∈ keys (attemptEvidence current outcome))
    (hname : name ∈ evidenceNames runtime row) : name ∈ evidenceNames runtime after := by
  cases hchange with
  | reobserved observation evidenceJson _ _ hread hwritten =>
    rw [evidenceNames, hread] at hname
    exact (mem_evidenceNames_of_written hlaw hwritten).mpr (mem_keys_update.mpr (.inl hname))
  | finished current outcome recipe evidenceJson _ _ hsettle hwritten =>
    rw [mem_evidenceNames_of_written hlaw hwritten, settle_evidence hsettle]
    exact hcovered current outcome recipe rfl
  | interrupted _ _ hstate =>
    rw [interruptedIncident, if_pos hstate]
    exact hname
  | _ => exact hname

/-- What was observed is evidence. -/
theorem RowChange.observed_names (hlaw : runtime.Lawful) {names : List String}
    (hchange : RowChange runtime row (some (.observed row.incidentId names)) after) {name : String}
    (hname : name ∈ names) : name ∈ evidenceNames runtime after := by
  cases hchange with
  | kept hother => exact absurd rfl (hother _ rfl)
  | reobserved observation evidenceJson _ _ hread hwritten =>
    exact (mem_evidenceNames_of_written hlaw hwritten).mpr (mem_keys_update.mpr (.inr hname))

end Rows

/-! ### Runs -/

section Runs

variable {Coordinator : Type} [DecidableEq Coordinator] {runtime : Runtime}

theorem keyed_run (events : List (Event Coordinator)) :
    (run (step runtime) {} events).database.Keyed :=
  invariant_run (fun system : System Coordinator ↦ system.database.Keyed) (keyed_start Coordinator)
    (fun _ event hkeyed ↦ (react_writes runtime hkeyed event).keyed hkeyed) events

theorem needsAck_step {system : System Coordinator} (hkeyed : system.database.Keyed)
    {incidentId : String} (hneeds : NeedsAck system.database incidentId)
    (event : Event Coordinator) : NeedsAck (step runtime system event).database incidentId := by
  obtain ⟨row, hrow, hneeds⟩ := hneeds
  obtain ⟨after, hafter, hchange⟩ := (react_writes runtime hkeyed event).row hrow
  exact ⟨after, hafter, hchange.needsAck hneeds⟩

/-- An incident that had to be acknowledged once has to be acknowledged in every later state. -/
theorem needsAck_run {events : List (Event Coordinator)} (later : List (Event Coordinator))
    {incidentId : String}
    (hneeds : NeedsAck (run (step runtime) {} events).database incidentId) :
    NeedsAck (run (step runtime) {} (events ++ later)).database incidentId := by
  rw [run_append]
  refine (invariant_run (fun system : System Coordinator ↦
    system.database.Keyed ∧ NeedsAck system.database incidentId) ⟨keyed_run events, hneeds⟩
    (fun system event hinvariant ↦ ?_) later).2
  exact ⟨(react_writes runtime hinvariant.1 event).keyed hinvariant.1,
    needsAck_step hinvariant.1 hinvariant.2 event⟩

theorem covered_of_finished {system : System Coordinator} {event : Event Coordinator}
    (hcovers : Covers runtime system event) {incidentId : String} {current : IncidentPayload}
    {outcome : RecoveryResult} {recipe : Option RecoveryRecipe}
    (hfinished : occurrence runtime system event =
      some (.finished incidentId current outcome recipe))
    {row : Incident} (hrow : system.database.find incidentId = some row) :
    (outcome.success = true → outcome.invariantsProven = true →
      recipe.any RecoveryRecipe.autoResolveAllowed = true →
        row.needsAck = true → current.row.needsAck = true) ∧
    ∀ name ∈ evidenceNames runtime row, name ∈ keys (attemptEvidence current outcome) := by
  obtain ⟨coordinator, attempt, rfl, hcall, rfl, rfl⟩ := committing_of_finished hfinished
  simp only [Covers, hcall] at hcovers
  obtain ⟨hack, hnames⟩ := hcovers row hrow
  exact ⟨hack, fun name hname ↦ mem_keys_attemptEvidence.mpr (hnames name hname)⟩

/-- A step that resolves an incident that has to be acknowledged acknowledges it. -/
theorem acknowledge_of_resolves {system : System Coordinator} (hkeyed : system.database.Keyed)
    {event : Event Coordinator} (hcovers : Covers runtime system event) {incidentId : String}
    (hneeds : NeedsAck (step runtime system event).database incidentId)
    (hresolves : Resolves system.database (step runtime system event).database incidentId) :
    ∃ acknowledgedBy timestamp note,
      event = .acknowledge incidentId acknowledgedBy timestamp note := by
  obtain ⟨after, hafter, hneeds⟩ := hneeds
  obtain ⟨hbefore, found, hfound, hresolved⟩ := hresolves
  obtain rfl : after = found := Option.mem_unique hafter hfound
  rcases (react_writes runtime hkeyed event).origin hafter with
    ⟨row, hrow, hchange⟩ | ⟨-, hopened, -⟩
  · obtain rfl := (Database.mem_of_find hrow).2
    rcases hchange.resolved (hbefore row hrow) hresolved with
      hacknowledged | ⟨current, outcome, recipe, hfinished, hsuccess, hproven, hfree, hauto⟩
    · exact acknowledge_of_acknowledged hacknowledged
    · rw [hfinished] at hchange
      have hack := (covered_of_finished hcovers hfinished hrow).1 hsuccess hproven hauto
        (hchange.needsAck_of_finished hneeds)
      rw [hfree] at hack
      cases hack
  · rw [hresolved] at hopened
    cases hopened

theorem hasEvidence_step (hlaw : runtime.Lawful) {system : System Coordinator}
    (hkeyed : system.database.Keyed) {event : Event Coordinator}
    (hcovers : Covers runtime system event) {incidentId name : String}
    (hevidence : HasEvidence runtime system.database incidentId name) :
    HasEvidence runtime (step runtime system event).database incidentId name := by
  obtain ⟨row, hrow, hname⟩ := hevidence
  obtain ⟨after, hafter, hchange⟩ := (react_writes runtime hkeyed event).row hrow
  obtain rfl := (Database.mem_of_find hrow).2
  exact ⟨after, hafter, hchange.names hlaw (fun _ _ _ hfinished ↦
    (covered_of_finished hcovers hfinished hrow).2 name hname) hname⟩

theorem hasEvidence_of_observed (hlaw : runtime.Lawful) {system : System Coordinator}
    (hkeyed : system.database.Keyed) {event : Event Coordinator} {incidentId : String}
    {names : List String}
    (hobserved : occurrence runtime system event = some (.observed incidentId names))
    {name : String} (hname : name ∈ names) :
    HasEvidence runtime (step runtime system event).database incidentId name := by
  have hwrites := react_writes runtime hkeyed event
  rw [hobserved] at hwrites
  obtain ⟨after, hafter⟩ := hwrites.find_about rfl
  refine ⟨after, hafter, ?_⟩
  rcases hwrites.origin hafter with ⟨row, hrow, hchange⟩ | ⟨-, -, -, -, evidence, hnames, hwritten⟩
  · obtain hid := (Database.mem_of_find hrow).2
    rw [Occurrence.incidentId] at hid
    subst hid
    exact hchange.observed_names hlaw hname
  · cases hnames
    exact (mem_evidenceNames_of_written hlaw hwritten).mpr hname

/-- Along covered steps, every name that was observed is in the evidence. -/
theorem observed_names_kept (hlaw : runtime.Lawful) {events : List (Event Coordinator)}
    (hcovers : Along (step runtime) (Covers runtime) {} events) {incidentId : String}
    {names : List String} {name : String}
    (hobserved : .observed incidentId names ∈ logOf (step runtime) (occurrence runtime) {} events)
    (hname : name ∈ names) :
    HasEvidence runtime (run (step runtime) {} events).database incidentId name := by
  refine (invariant_log (occurrence runtime) (fun system log ↦ system.database.Keyed ∧
    ∀ incidentId names name, .observed incidentId names ∈ log → name ∈ names →
      HasEvidence runtime system.database incidentId name)
    ⟨keyed_start Coordinator, by simp⟩ (fun system log event hinvariant hcovers ↦ ?_) hcovers).2
    incidentId names name hobserved hname
  obtain ⟨hkeyed, hlog⟩ := hinvariant
  refine ⟨(react_writes runtime hkeyed event).keyed hkeyed, ?_⟩
  intro incidentId names name hobserved hname
  rcases List.mem_append.mp hobserved with hbefore | hnow
  · exact hasEvidence_step hlaw hkeyed hcovers (hlog incidentId names name hbefore hname)
  · exact hasEvidence_of_observed hlaw hkeyed (Option.mem_toList.mp hnow) hname

/-- Along covered steps, an incident that once had to be acknowledged becomes resolved by
`acknowledge` only, and every name that was observed stays in the evidence. -/
theorem acknowledged_before_resolved (hlaw : runtime.Lawful) (events : List (Event Coordinator))
    (hcovers : Along (step runtime) (Covers runtime) {} events) :
    (∀ before event after, events = before ++ event :: after →
      ∀ earlier incidentId, earlier <+: before ++ [event] →
        NeedsAck (run (step runtime) {} earlier).database incidentId →
        Resolves (run (step runtime) {} before).database
          (run (step runtime) {} (before ++ [event])).database incidentId →
        ∃ acknowledgedBy timestamp note,
          event = .acknowledge incidentId acknowledgedBy timestamp note) ∧
    ∀ before after, events = before ++ after → ∀ incidentId names name,
      .observed incidentId names ∈ logOf (step runtime) (occurrence runtime) {} before →
      name ∈ names →
        HasEvidence runtime (run (step runtime) {} before).database incidentId name := by
  constructor
  · rintro before event after rfl earlier incidentId ⟨later, hlater⟩ hneeds hresolves
    have hstill := needsAck_run later hneeds
    rw [hlater, run_concat] at hstill
    rw [run_concat] at hresolves
    have hcovered := ((along_append _ before (event :: after)).mp hcovers).2.1
    exact acknowledge_of_resolves (keyed_run before) hcovered hstill hresolves
  · rintro before after rfl incidentId names name hobserved hname
    exact observed_names_kept hlaw ((along_append _ before after).mp hcovers).1 hobserved hname

end Runs

/-! ### An observation that is overwritten -/

/-- A writer of four documents. -/
def sampleTexts : List (Json × String) :=
  [(.dict [], "\x7b\x7d"),
    (.dict [("attempt", .int 1)], "\x7b\"attempt\":1\x7d"),
    (.dict [("exposure", .bool true)], "\x7b\"exposure\":true\x7d"),
    (.dict [("invariants_proven", .bool true)], "\x7b\"invariants_proven\":true\x7d"),
    (.dict [("exposure", .bool true), ("invariants_proven", .bool true)],
      "\x7b\"exposure\":true,\"invariants_proven\":true\x7d")]

def sampleRuntime : Runtime where
  dumps document := orThrow (sampleTexts.lookup document) "not in the sample"
  loads text := orThrow ((sampleTexts.map Prod.swap).lookup text) "not in the sample"
  addSeconds now delay := .ok (now + ⌊delay * 1000000⌋)

theorem sampleRuntime_lawful : sampleRuntime.Lawful where
  dumps_empty := ⟨_, rfl⟩
  loads_dumps := by
    intro entries text hdumps
    have hmem := mem_of_lookup (orThrow_eq_ok.mp hdumps)
    simp only [sampleTexts, List.mem_cons, List.not_mem_nil, or_false, Prod.mk.injEq] at hmem
    rcases hmem with ⟨hentries, rfl⟩ | ⟨hentries, rfl⟩ | ⟨hentries, rfl⟩ | ⟨hentries, rfl⟩ |
      ⟨hentries, rfl⟩ <;> cases hentries
    all_goals exact ⟨by decide, _, rfl, fun _ ↦ Iff.rfl⟩

/-- A warning about a venue, and the same incident as a critical one. -/
def sampleObservation (severity : IncidentSeverity) (evidence : Evidence) :
    IncidentObservation where
  incidentKey := "feed:venue"
  category := "feed"
  scopeType := .venue
  scopeValue := "venue"
  severity := severity
  owner := "feed"
  recipeId := "resync"
  evidence := some evidence

/-- A recovery of the warning, up to the query by which the attempt is finished. -/
def warningRecovered : List (Event Unit) :=
  [.registerRecipe () ⟨"resync", 30, 1800, true⟩,
    .observe "incident" (sampleObservation .warning []) 0 "detector",
    .runDue () 1 25,
    .advance (),
    .advance (),
    .handlerReturns () (.ok ⟨true, true, "resynchronized", none⟩),
    .advance ()]

def escalated : Event Unit :=
  .observe "other" (sampleObservation .critical [("exposure", .bool true)]) 2 "detector"

/-- The same recovery with the observation before the query. The attempt leaves the incident to be
acknowledged. -/
def criticalRecovered : List (Event Unit) :=
  [.registerRecipe () ⟨"resync", 30, 1800, true⟩,
    .observe "incident" (sampleObservation .warning []) 0 "detector",
    .runDue () 1 25,
    .advance (),
    .advance (),
    escalated,
    .handlerReturns () (.ok ⟨true, true, "resynchronized", none⟩),
    .advance (),
    .advance (),
    .acknowledge "incident" "operator" 3 "verified"]

theorem critical_recovery_acknowledged :
    Along (step sampleRuntime) (Covers sampleRuntime) {} criticalRecovered ∧
      Resolves (run (step sampleRuntime) {} criticalRecovered.dropLast).database
        (run (step sampleRuntime) {} criticalRecovered).database "incident" ∧
      HasEvidence sampleRuntime (run (step sampleRuntime) {} criticalRecovered).database
        "incident" "exposure" := by
  have hcovers : Along (step sampleRuntime) (Covers sampleRuntime) {} criticalRecovered := by
    decide +kernel
  refine ⟨hcovers, by decide +kernel, ?_⟩
  exact (acknowledged_before_resolved sampleRuntime_lawful criticalRecovered hcovers).2
    criticalRecovered [] (List.append_nil _).symm "incident" ["exposure"] "exposure"
    (by decide +kernel) (by decide)

/-- The incident becomes critical and gets the evidence of an exposure before the attempt is
written, and is resolved without an acknowledgement and without that evidence. -/
theorem escalation_overwritten :
    (.observed "incident" ["exposure"] ∈ logOf (step sampleRuntime) (occurrence sampleRuntime) {}
      (warningRecovered ++ [escalated])) ∧
    NeedsAck (run (step sampleRuntime) {} (warningRecovered ++ [escalated])).database "incident" ∧
    Resolves (run (step sampleRuntime) {} (warningRecovered ++ [escalated])).database
      (run (step sampleRuntime) {} (warningRecovered ++ [escalated, .advance ()])).database
      "incident" ∧
    HasEvidence sampleRuntime (run (step sampleRuntime) {}
      (warningRecovered ++ [escalated])).database "incident" "exposure" ∧
    ¬ HasEvidence sampleRuntime (run (step sampleRuntime) {}
      (warningRecovered ++ [escalated, .advance ()])).database "incident" "exposure" := by
  decide +kernel

end Bongus.Supervisor
