import Bongus.Supervisor.Escalation
import Mathlib.Data.Fintype.Basic

/-!
# Cleared on a fresh proof

An incident should be resolved only after an attempt that succeeded with its invariants proven and
that was finished after the incident was last observed (`Proven`), and no incident gets more
attempts than it may have.

An observation leaves an incident that awaits its acknowledgement in that state, with the proof of
the attempt before it, so that the acknowledgement that follows rests on an older proof
(`stale_proof_acknowledged`). This is the only way: a step resolves an incident without a fresh
proof exactly if it acknowledges one for which the trail has such an observation, and the number of
attempts is bounded in every run (`resolved_on_fresh_proof_iff`). The calls may interleave in any
way; in a serial run they do not (`Serial`).
-/

set_option autoImplicit false
set_option relaxedAutoImplicit false

namespace Bongus.Supervisor

open Lib.Dictionary Lib.Documents Lib.Fallible Lib.Runs

section Histories

/-- An attempt that succeeded with its invariants proven was finished after the last observation. -/
def Proven (log : List Occurrence) (incidentId : String) : Prop :=
  ∃ earlier current outcome recipe later,
    log = earlier ++ .finished incidentId current outcome recipe :: later ∧
      outcome.success = true ∧ outcome.invariantsProven = true ∧
      ∀ names, .observed incidentId names ∉ later

/-- The number of attempts that were started for the incident. -/
def attemptsStarted (log : List Occurrence) (incidentId : String) : ℕ :=
  log.count (.started incidentId)

theorem proven_concat_finished {log : List Occurrence} {incidentId : String}
    {current : IncidentPayload} {outcome : RecoveryResult} {recipe : Option RecoveryRecipe}
    (hsuccess : outcome.success = true) (hproven : outcome.invariantsProven = true) :
    Proven (log ++ [.finished incidentId current outcome recipe]) incidentId :=
  ⟨log, current, outcome, recipe, [], rfl, hsuccess, hproven, fun _ ↦ List.not_mem_nil⟩

/-- An observation is later than every attempt. -/
theorem not_proven_concat_observed (log : List Occurrence) (incidentId : String)
    (names : List String) : ¬ Proven (log ++ [.observed incidentId names]) incidentId := by
  rintro ⟨earlier, current, outcome, recipe, later, hlog, -, -, hlater⟩
  rcases List.eq_nil_or_concat later with rfl | ⟨later, last, rfl⟩
  · have hlast := (List.append_inj' hlog rfl).2
    cases hlast
  · rw [List.concat_eq_append, ← List.cons_append, ← List.append_assoc] at hlog
    have hlast := (List.append_inj' hlog rfl).2
    refine hlater names ?_
    rw [List.concat_eq_append, ← hlast]
    simp

/-- Other occurrences do not change what is proven. -/
theorem proven_concat_other {log : List Occurrence} {incidentId : String} {last : Occurrence}
    (hobserved : ∀ names, last ≠ .observed incidentId names)
    (hfinished : ∀ current outcome recipe, last ≠ .finished incidentId current outcome recipe) :
    Proven (log ++ [last]) incidentId ↔ Proven log incidentId := by
  constructor
  · rintro ⟨earlier, current, outcome, recipe, later, hlog, hsuccess, hproven, hlater⟩
    rcases List.eq_nil_or_concat later with rfl | ⟨later, final, rfl⟩
    · have hlast := List.singleton_inj.mp (List.append_inj' hlog rfl).2
      exact absurd hlast (hfinished current outcome recipe)
    · rw [List.concat_eq_append, ← List.cons_append, ← List.append_assoc] at hlog
      refine ⟨earlier, current, outcome, recipe, later, (List.append_inj' hlog rfl).1, hsuccess,
        hproven, fun names hmem ↦ hlater names ?_⟩
      rw [List.concat_eq_append]
      exact List.mem_append_left _ hmem
  · rintro ⟨earlier, current, outcome, recipe, later, rfl, hsuccess, hproven, hlater⟩
    refine ⟨earlier, current, outcome, recipe, later ++ [last], by simp, hsuccess, hproven, ?_⟩
    intro names hmem
    rcases List.mem_append.mp hmem with hmem | hmem
    · exact hlater names hmem
    · exact hobserved names (List.mem_singleton.mp hmem).symm

theorem proven_concat_acknowledged {log : List Occurrence} {incidentId other : String} :
    Proven (log ++ [.acknowledged other]) incidentId ↔ Proven log incidentId :=
  proven_concat_other (fun _ hsame ↦ by cases hsame) fun _ _ _ hsame ↦ by cases hsame

end Histories

/-! ### The trail and the history -/

section Invariant

/-- What the history and the trail say about a row. -/
structure Accounted (database : Database) (log : List Occurrence) (row : Incident) : Prop where
  count : attemptsStarted log row.incidentId = row.attemptCount
  budget : (row.attemptCount : ℤ) ≤ row.maxAttempts
  proven : row.state = .ackRequired →
    (Proven log row.incidentId ↔ ¬ database.Late row.incidentId)
  early : row.state ≠ .ackRequired → row.state ≠ .resolved → ¬ database.Late row.incidentId

structure Sound (database : Database) (log : List Occurrence) : Prop where
  keyed : database.Keyed
  known : database.Known
  rows : ∀ row ∈ database.incidents, Accounted database log row
  unknown : ∀ incidentId, database.find incidentId = none → attemptsStarted log incidentId = 0

variable {runtime : Runtime} {database next : Database} {log : List Occurrence}
  {occurrence : Option Occurrence}

theorem attemptsStarted_concat (log : List Occurrence) (occurrence : Option Occurrence)
    (incidentId : String) :
    attemptsStarted (log ++ occurrence.toList) incidentId =
      attemptsStarted log incidentId +
        if occurrence = some (.started incidentId) then 1 else 0 := by
  unfold attemptsStarted
  rw [List.count_append]
  cases occurrence with
  | none => simp
  | some last => simp [List.count_singleton]

/-- A transaction that is about something else leaves what is said about a row. -/
theorem Accounted.other {row : Incident} (hrow : Accounted database log row)
    (hother : ∀ about ∈ occurrence, about.incidentId ≠ row.incidentId)
    (hlate : next.Late row.incidentId ↔ database.Late row.incidentId) :
    Accounted next (log ++ occurrence.toList) row := by
  have hproven : Proven (log ++ occurrence.toList) row.incidentId ↔ Proven log row.incidentId := by
    cases occurrence with
    | none => simp
    | some last =>
      refine proven_concat_other ?_ ?_
      · rintro names rfl
        exact hother _ rfl rfl
      · rintro current outcome recipe rfl
        exact hother _ rfl rfl
  refine ⟨?_, hrow.budget, ?_, ?_⟩
  · rw [attemptsStarted_concat, if_neg, hrow.count, add_zero]
    rintro rfl
    exact hother _ rfl rfl
  · rw [hproven, hlate]
    exact hrow.proven
  · rw [hlate]
    exact hrow.early

/-- An attempt asks for an acknowledgement only if it succeeded with its invariants proven. -/
theorem settle_ackRequired {current : IncidentPayload} {outcome : RecoveryResult}
    {recipe : Option RecoveryRecipe} {now : ℤ} {settlement : Settlement}
    (hsettle : settle runtime current outcome recipe now = .ok settlement)
    (hstate : settlement.nextState = .ackRequired) :
    outcome.success = true ∧ outcome.invariantsProven = true := by
  unfold settle at hsettle
  by_cases hproven : (outcome.success && outcome.invariantsProven) = true
  · rwa [Bool.and_eq_true] at hproven
  · rw [if_neg hproven] at hsettle
    split_ifs at hsettle
    · cases hsettle
      cases hstate
    · simp only [bind_eq_ok, pure_eq_ok] at hsettle
      obtain ⟨_, -, _, -, rfl⟩ := hsettle
      cases hstate

/-- A transaction keeps what is said about the row that it changes. -/
theorem Accounted.change {row after : Incident} (hrow : Accounted database log row)
    (hchange : RowChange runtime row occurrence after)
    (hlate : next.Late row.incidentId ↔ database.Late row.incidentId ∨
      (row.state = .ackRequired ∧ ∃ names, occurrence = some (.observed row.incidentId names))) :
    Accounted next (log ++ occurrence.toList) after := by
  cases hchange with
  | kept hother =>
    refine hrow.other hother (hlate.trans (or_iff_left ?_))
    rintro ⟨-, names, rfl⟩
    exact hother _ rfl rfl
  | reobserved observation evidenceJson timestamp =>
    refine ⟨?_, hrow.budget, fun hstate ↦ ?_, fun hstate hactive ↦ ?_⟩
    · rw [attemptsStarted_concat, if_neg nofun]
      exact hrow.count
    · refine iff_of_false (not_proven_concat_observed log row.incidentId _) ?_
      exact not_not.mpr (hlate.mpr (.inr ⟨hstate, _, rfl⟩))
    · intro hnext
      rcases hlate.mp hnext with hearlier | ⟨hack, -⟩
      · exact hrow.early hstate hactive hearlier
      · exact hstate hack
  | started now hstate hbudget =>
    have hearly : ¬ database.Late row.incidentId := by
      rcases hstate with hstate | hstate <;> exact hrow.early (by simp [hstate]) (by simp [hstate])
    refine ⟨?_, ?_, fun hstate ↦ ?_, fun _ _ hnext ↦ ?_⟩
    · change attemptsStarted _ row.incidentId = row.attemptCount + 1
      rw [attemptsStarted_concat, if_pos rfl, hrow.count]
    · change ((row.attemptCount + 1 : ℕ) : ℤ) ≤ row.maxAttempts
      push_cast
      exact hbudget
    · cases hstate
    · rcases hlate.mp hnext with hearlier | ⟨-, names, hnames⟩
      · exact hearly hearlier
      · cases hnames
  | finished current outcome recipe evidenceJson now hstate hsettle hwritten =>
    have hearly : ¬ next.Late row.incidentId := by
      intro hnext
      rcases hlate.mp hnext with hearlier | ⟨-, names, hnames⟩
      · exact hrow.early (by simp [hstate]) (by simp [hstate]) hearlier
      · cases hnames
    refine ⟨?_, hrow.budget, fun hack ↦ ?_, fun _ _ ↦ hearly⟩
    · rw [attemptsStarted_concat, if_neg nofun]
      exact hrow.count
    · obtain ⟨hsuccess, hproven⟩ := settle_ackRequired hsettle hack
      exact iff_of_true (proven_concat_finished hsuccess hproven) hearly
  | acknowledged acknowledgedBy timestamp hstate =>
    refine ⟨?_, hrow.budget, fun hack ↦ ?_, fun _ hactive ↦ ?_⟩
    · rw [attemptsStarted_concat, if_neg nofun]
      exact hrow.count
    · cases hack
    · exact absurd rfl hactive
  | @interrupted nextState nextAttemptAt now hstate hnext =>
    have hearly : ¬ next.Late row.incidentId := by
      intro hlater
      rcases hlate.mp hlater with hearlier | ⟨-, names, hnames⟩
      · exact hrow.early (by simp [hstate]) (by simp [hstate]) hearlier
      · cases hnames
    rw [interruptedIncident, if_pos hstate, Option.toList_none, List.append_nil]
    refine ⟨hrow.count, hrow.budget, fun hack ↦ ?_, fun _ _ ↦ hearly⟩
    rcases hnext with rfl | rfl <;> cases hack

theorem Sound.writes (hsound : Sound database log)
    (hwrites : Writes runtime database occurrence next) :
    Sound next (log ++ occurrence.toList) := by
  have hkeyed := hwrites.keyed hsound.keyed
  refine ⟨hkeyed, hwrites.known hsound.known, fun after hafter ↦ ?_, fun incidentId hnone ↦ ?_⟩
  · rcases hwrites.origin (hkeyed.find_eq hafter) with
      ⟨row, hrow, hchange⟩ | ⟨hnone, hstate, hcount, hmax, evidence, habout, -⟩
    · obtain ⟨hmem, hid⟩ := Database.mem_of_find hrow
      refine (hsound.rows row hmem).change hchange ?_
      rw [hwrites.late hsound.keyed, hid, hrow]
      simp
    · have hlate : ¬ next.Late after.incidentId := by
        rw [hwrites.late hsound.keyed, hnone]
        rintro (⟨event, hevent, hid, -⟩ | ⟨row, hrow, -⟩)
        · rw [← hid] at hnone
          exact hsound.known event hevent hnone
        · cases hrow
      refine ⟨?_, ?_, fun hack ↦ ?_, fun _ _ ↦ hlate⟩
      · rw [attemptsStarted_concat, habout, if_neg nofun, hsound.unknown _ hnone, hcount]
      · rw [hcount]
        exact zero_le_one.trans hmax
      · rw [hstate] at hack
        cases hack
  · have hbefore : database.find incidentId = none := by
      cases hfind : database.find incidentId with
      | none => rfl
      | some row =>
        obtain ⟨after, hafter, -⟩ := hwrites.row hfind
        rw [hnone] at hafter
        cases hafter
    rw [attemptsStarted_concat, hsound.unknown incidentId hbefore, if_neg]
    rintro rfl
    obtain ⟨row, hrow⟩ := hwrites.find_about rfl
    rw [Occurrence.incidentId, hnone] at hrow
    cases hrow

end Invariant

/-! ### Runs -/

section Runs

variable {Coordinator : Type} [DecidableEq Coordinator] {runtime : Runtime}

theorem sound_run (runtime : Runtime) (events : List (Event Coordinator)) :
    Sound (run (step runtime) {} events).database
      (logOf (step runtime) (occurrence runtime) {} events) := by
  have halong : Along (step runtime) (fun _ _ ↦ True) ({} : System Coordinator) events := by
    rw [along_iff]
    exact fun _ _ _ _ ↦ trivial
  refine invariant_log (occurrence runtime) (fun system log ↦ Sound system.database log) ?_
    (fun system log event hsound _ ↦ hsound.writes (react_writes runtime hsound.keyed event)) halong
  exact ⟨keyed_start Coordinator, fun _ hevent ↦ absurd hevent List.not_mem_nil,
    fun _ hrow ↦ absurd hrow List.not_mem_nil, fun _ _ ↦ rfl⟩

/-- The event acknowledges an incident that was observed after it was found proven. -/
def AcknowledgesStale (runtime : Runtime) (database : Database) : Event Coordinator → Prop
  | .acknowledge incidentId acknowledgedBy _ _ =>
    isMissing acknowledgedBy = false ∧ database.Late incidentId ∧
      ∃ row ∈ database.find incidentId, row.state = .ackRequired ∧
        ∃ evidence, decodeJson runtime row.evidenceJson = .ok evidence ∧
          (Json.get evidence "invariants_proven").truthy = true
  | _ => False

/-- A step that acknowledges finds the incident awaiting it. -/
theorem acknowledge_eq_ok_of_acknowledged {system : System Coordinator}
    {incidentId acknowledgedBy note : String} {timestamp : ℤ}
    (hacknowledged : occurrence runtime system
      (.acknowledge incidentId acknowledgedBy timestamp note) = some (.acknowledged incidentId)) :
    ∃ next, acknowledge runtime incidentId acknowledgedBy timestamp note system.database =
      .ok next := by
  simp only [occurrence, react] at hacknowledged
  split at hacknowledged
  · cases hacknowledged
  · rename_i next hnext
    exact ⟨next, hnext⟩

theorem proven_of_resolves {system : System Coordinator} {log : List Occurrence}
    (hsound : Sound system.database log) {event : Event Coordinator}
    (hfresh : ¬ AcknowledgesStale runtime system.database event) {incidentId : String}
    (hresolves : Resolves system.database (step runtime system event).database incidentId) :
    Proven (log ++ (occurrence runtime system event).toList) incidentId := by
  obtain ⟨hbefore, after, hafter, hresolved⟩ := hresolves
  rcases (react_writes runtime hsound.keyed event).origin hafter with
    ⟨row, hrow, hchange⟩ | ⟨-, hopened, -⟩
  · obtain ⟨hmem, rfl⟩ := Database.mem_of_find hrow
    rcases hchange.resolved (hbefore row hrow) hresolved with
      hacknowledged | ⟨current, outcome, recipe, hfinished, hsuccess, hproven, -⟩
    · obtain ⟨acknowledgedBy, timestamp, note, rfl⟩ := acknowledge_of_acknowledged hacknowledged
      obtain ⟨next, hnext⟩ := acknowledge_eq_ok_of_acknowledged hacknowledged
      obtain ⟨hby, found, hfound, hstate, evidence, hread, htruthy, -⟩ :=
        acknowledge_eq_ok.mp hnext
      obtain rfl : row = found := Option.mem_unique hrow hfound
      have hearly : ¬ system.database.Late row.incidentId := fun hlate ↦
        hfresh ⟨hby, hlate, row, hrow, hstate, evidence, hread, htruthy⟩
      rw [hacknowledged, Option.toList_some, proven_concat_acknowledged]
      exact ((hsound.rows row hmem).proven hstate).mpr hearly
    · rw [hfinished]
      exact proven_concat_finished hsuccess hproven
  · rw [hresolved] at hopened
    cases hopened

/-- The acknowledgement of a stale incident resolves it without a fresh proof. -/
theorem resolves_of_acknowledgesStale (hlaw : runtime.Lawful) {system : System Coordinator}
    {log : List Occurrence} (hsound : Sound system.database log) {event : Event Coordinator}
    (hstale : AcknowledgesStale runtime system.database event) :
    ∃ incidentId, Resolves system.database (step runtime system event).database incidentId ∧
      ¬ Proven (log ++ (occurrence runtime system event).toList) incidentId := by
  cases event with
  | acknowledge incidentId acknowledgedBy timestamp note =>
    obtain ⟨hby, hlate, row, hrow, hstate, evidence, hread, htruthy⟩ := hstale
    obtain ⟨text, htext⟩ := hlaw.dumps_empty
    obtain ⟨next, hnext⟩ : ∃ next, acknowledge runtime incidentId acknowledgedBy timestamp note
        system.database = .ok next :=
      ⟨_, acknowledge_eq_ok.mpr
        ⟨hby, row, hrow, hstate, evidence, hread, htruthy, text, htext, rfl⟩⟩
    have hoccurrence : occurrence runtime system
        (.acknowledge incidentId acknowledgedBy timestamp note) =
          some (.acknowledged incidentId) := by
      simp only [occurrence, react, hnext]
    have hwrites := react_writes runtime hsound.keyed
      (.acknowledge incidentId acknowledgedBy timestamp note)
    obtain ⟨hmem, rfl⟩ := Database.mem_of_find hrow
    obtain ⟨after, hafter, hchange⟩ := hwrites.row hrow
    refine ⟨row.incidentId, ⟨fun found hfound ↦ ?_, after, hafter, ?_⟩, ?_⟩
    · obtain rfl : row = found := Option.mem_unique hrow hfound
      rw [hstate]
      decide
    · rw [hoccurrence] at hchange
      cases hchange with
      | kept hother => exact absurd rfl (hother _ rfl)
      | acknowledged => rfl
    · rw [hoccurrence, Option.toList_some, proven_concat_acknowledged,
        (hsound.rows row hmem).proven hstate]
      exact not_not.mpr hlate
  | _ => cases hstale

/-- Every step of every run resolves incidents on a fresh proof only, unless it acknowledges a stale
one, and no incident gets more attempts than it may have. -/
theorem resolved_on_fresh_proof_iff (hlaw : runtime.Lawful) (before : List (Event Coordinator))
    (event : Event Coordinator) :
    ((∀ incidentId, Resolves (run (step runtime) {} before).database
        (run (step runtime) {} (before ++ [event])).database incidentId →
      Proven (logOf (step runtime) (occurrence runtime) {} (before ++ [event])) incidentId) ↔
        ¬ AcknowledgesStale runtime (run (step runtime) {} before).database event) ∧
    ∀ incidentId, ∀ row ∈ (run (step runtime) {} before).database.find incidentId,
      (attemptsStarted (logOf (step runtime) (occurrence runtime) {} before) incidentId : ℤ) ≤
        row.maxAttempts := by
  have hsound := sound_run runtime before
  have hlog : logOf (step runtime) (occurrence runtime) {} (before ++ [event]) =
      logOf (step runtime) (occurrence runtime) {} before ++
        (occurrence runtime (run (step runtime) {} before) event).toList := by
    rw [logOf_append, logOf, logOf, List.append_nil]
  rw [run_concat, hlog]
  refine ⟨⟨fun hproven hstale ↦ ?_, fun hfresh _ hresolves ↦ ?_⟩, fun incidentId row hrow ↦ ?_⟩
  · obtain ⟨incidentId, hresolves, hunproven⟩ := resolves_of_acknowledgesStale hlaw hsound hstale
    exact hunproven (hproven incidentId hresolves)
  · exact proven_of_resolves hsound hfresh hresolves
  · obtain ⟨hmem, rfl⟩ := Database.mem_of_find hrow
    have haccounted := hsound.rows row hmem
    rw [haccounted.count]
    exact haccounted.budget

end Runs

/-! ### A stale proof -/

def Call.isIdle : Call → Bool
  | .idle => true
  | _ => false

/-- A call begins only when no other one is under way. -/
def Serial {Coordinator : Type} (system : System Coordinator) : Event Coordinator → Prop
  | .advance _ | .handlerReturns .. | .abandon _ => True
  | _ => ∀ coordinator, (system.coordinators coordinator).call.isIdle = true

instance {Coordinator : Type} [Fintype Coordinator] (system : System Coordinator)
    (event : Event Coordinator) : Decidable (Serial system event) :=
  match event with
  | .advance _ | .handlerReturns .. | .abandon _ => .isTrue trivial
  | .observe .. | .acknowledge .. | .startUp .. | .registerRecipe .. | .runDue .. =>
    Fintype.decidableForallFintype

/-- A critical incident whose recovery is proven, with the call of `run_due` at its end. -/
def recoveryProven : List (Event Unit) :=
  [.registerRecipe () ⟨"resync", 30, 1800, true⟩,
    .observe "incident" (sampleObservation .critical []) 0 "detector",
    .runDue () 1 25,
    .advance (),
    .advance (),
    .handlerReturns () (.ok ⟨true, true, "resynchronized", none⟩),
    .advance (),
    .advance (),
    .advance (),
    .advance ()]

def observedAgain : Event Unit :=
  .observe "other" (sampleObservation .critical []) 2 "detector"

def operatorAcknowledges : Event Unit := .acknowledge "incident" "operator" 3 "verified"

theorem recovery_acknowledged :
    Resolves (run (step sampleRuntime) {} recoveryProven).database
      (run (step sampleRuntime) {} (recoveryProven ++ [operatorAcknowledges])).database
      "incident" ∧
    Proven (logOf (step sampleRuntime) (occurrence sampleRuntime) {}
      (recoveryProven ++ [operatorAcknowledges])) "incident" := by
  have hresolves : Resolves (run (step sampleRuntime) {} recoveryProven).database
      (run (step sampleRuntime) {} (recoveryProven ++ [operatorAcknowledges])).database
      "incident" := by
    decide +kernel
  have hfresh : ¬ AcknowledgesStale sampleRuntime
      (run (step sampleRuntime) {} recoveryProven).database operatorAcknowledges := by
    rintro ⟨-, hlate, -⟩
    exact absurd hlate (by decide +kernel)
  exact ⟨hresolves, (resolved_on_fresh_proof_iff sampleRuntime_lawful recoveryProven
    operatorAcknowledges).1.mpr hfresh "incident" hresolves⟩

/-- The incident is observed again after its recovery was proven, and the acknowledgement resolves
it although no attempt was made since. -/
theorem stale_proof_acknowledged :
    Along (step sampleRuntime) Serial {}
      (recoveryProven ++ [observedAgain, operatorAcknowledges]) ∧
    Resolves (run (step sampleRuntime) {} (recoveryProven ++ [observedAgain])).database
      (run (step sampleRuntime) {}
        (recoveryProven ++ [observedAgain, operatorAcknowledges])).database "incident" ∧
    ¬ Proven (logOf (step sampleRuntime) (occurrence sampleRuntime) {}
      (recoveryProven ++ [observedAgain, operatorAcknowledges])) "incident" := by
  refine ⟨by decide +kernel, by decide +kernel, ?_⟩
  have hlog : logOf (step sampleRuntime) (occurrence sampleRuntime) {}
      (recoveryProven ++ [observedAgain, operatorAcknowledges]) =
        logOf (step sampleRuntime) (occurrence sampleRuntime) {} recoveryProven ++
          [.observed "incident" []] ++ [.acknowledged "incident"] := by
    decide +kernel
  rw [hlog, proven_concat_acknowledged]
  exact not_proven_concat_observed _ "incident" []

end Bongus.Supervisor
