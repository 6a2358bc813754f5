import Bongus.Lib.Runs
import Bongus.Trader.RiskEngine

/-!
# Kill episodes

`scripts/live_trader_v2.py`, `_apply_kill_episode`, `_account_flat_recovery_proof`, their caller
`_evaluate_risk_controls`, and the part of the constructor that restores the kill switch. A decision
that trips the switch opens an episode. An open episode overrides every later decision, is written
to the risk record before anything acts on the decision, and is read back when the process starts.
It is closed by an evaluation that finds an operator's request for it, a flat account and a decision
that no longer asks for less exposure.

A process can die in an evaluation, before or after the write of the episode, and between two
evaluations. `kill_held_until_release` follows one episode through such a run, and
`release_requests_increase` shows that no request closes two episodes.
-/

set_option autoImplicit false
set_option relaxedAutoImplicit false

namespace Bongus.Trader

open Lib.Runs

/-! ### The records -/

/-- A time of the wall clock, in microseconds. -/
abbrev Instant := ℤ

inductive TradingMode where
  | paper
  | testnet
  | live
deriving DecidableEq, Repr

inductive EpisodeReason where
  | decision (reasons : List Reason)
  | restoredPersistedKillSwitch
deriving DecidableEq, Repr

inductive EpisodeStatus where
  | riskReductionRequired
  | released
  | manualReviewRequired
  | awaitingReconciliationAndOperator
deriving DecidableEq, Repr

structure KillEpisode where
  episodeId : String
  active : Bool
  startedAt : Instant
  reason : EpisodeReason
  highWatermarkUsd : Option ℚ := none
  status : Option EpisodeStatus := none
  unresolvedManualSymbols : List String := []
  releasedAt : Option Instant := none
  releasedBy : Option String := none
  recoveryRequestId : Option String := none
deriving DecidableEq, Repr

/-- The keys of the risk record that the kill switch uses. `none` is the empty episode. -/
structure RiskRecord where
  killEpisode : Option KillEpisode := none
  killSwitch : Bool := false
  consumedRequestId : String := ""
deriving DecidableEq, Repr

/-- What the process holds in memory. -/
structure Memory where
  episode : Option KillEpisode
  allowNewRisk : Bool
  deriskRequired : Bool
  killSwitch : Bool
  highLatencyStart : ℚ := 0
deriving DecidableEq, Repr

/-- The operator's request as the configuration has it, its texts stripped and its time parsed. -/
structure RecoveryRequest where
  requestId : String := ""
  requestedBy : String := ""
  requestedAt : Option Instant := none
deriving DecidableEq, Repr

/-- An open position, its symbol in upper case and its recovery state in lower case. -/
structure PositionRow where
  symbol : String
  qty : ℚ
  recoveryState : String := ""
deriving DecidableEq, Repr

/-- What the rest of the trader knows about the account. -/
structure AccountFacts where
  reconciliationTime : Option Instant := none
  reconciliationReady : Bool := false
  freshTruthReady : Bool := false
  economicLedgerReconciled : Bool := false
  flatProofReady : Bool := false
  flatConfirmationCount : ℤ := 0
  emergencyAccountingPending : Bool := false
  pendingIntents : Bool := false
  pendingEnters : Bool := false
  pendingExitIntents : Bool := false
deriving DecidableEq, Repr

/-- The inputs of one evaluation. `episodeId` is the fresh id of an episode that it may open. -/
structure Evaluation where
  now : Instant
  monotonic : ℚ := 0
  episodeId : String := ""
  limits : RiskLimits := {}
  reading : RiskState
  unknownExposureSymbols : List String := []
  rows : List PositionRow := []
  stuckSymbols : List String := []
  peakAccountEquity : ℚ := 0
  request : RecoveryRequest := {}
  facts : AccountFacts := {}

/-- The inputs of a start of the process. -/
structure Startup where
  now : Instant
  episodeId : String := ""
deriving DecidableEq, Repr

/-- What the trader takes from its surroundings: the mode, and the text that reading back a stored
request id gives, which the JSON reader may change. -/
structure Host where
  mode : TradingMode
  reread : String → String

/-- An episode is open. -/
def isActive (episode : Option KillEpisode) : Bool :=
  episode.any KillEpisode.active

/-! ### One evaluation -/

def positionQtyTolerance : ℚ := 1 / 10 ^ 9

def positionExcludedFromManagedRisk (input : Evaluation) (row : PositionRow) : Bool :=
  row.symbol ∈ input.stuckSymbols || row.recoveryState = "manual_review"

variable (host : Host)

/-- That nothing is open here proves nothing about the exchange. -/
def accountFlatRecoveryProof (facts : AccountFacts) (rows : List PositionRow) : Bool :=
  if rows.any (fun row ↦ decide (|row.qty| > positionQtyTolerance)) then false
  else if facts.pendingIntents then false
  else if host.mode = .paper then !(facts.pendingEnters || facts.pendingExitIntents)
  else facts.reconciliationReady && facts.freshTruthReady && facts.economicLedgerReconciled &&
    facts.flatProofReady && decide (facts.flatConfirmationCount ≥ 2) &&
    !facts.emergencyAccountingPending

/-- The request was made after the episode began, names who made it, and is not the last one
used. -/
def freshRequest (request : RecoveryRequest) (episode : KillEpisode) (consumed : String)
    (now : Instant) : Bool :=
  request.requestId != "" && request.requestedBy != "" &&
    request.requestedAt.any (fun requested ↦
      decide (requested ≥ episode.startedAt) && decide (requested ≤ now)) &&
    request.requestId != consumed

def proofAfterRequest (request : RecoveryRequest) (facts : AccountFacts) : Bool :=
  host.mode = .paper || request.requestedAt.any (fun requested ↦
    facts.reconciliationTime.any (fun proof ↦ decide (proof ≥ requested)))

/-- The evaluation closes the episode. -/
def releases (input : Evaluation) (record : RiskRecord) (decision : RiskDecision)
    (episode : KillEpisode) : Bool :=
  freshRequest input.request episode (host.reread record.consumedRequestId) input.now &&
    proofAfterRequest host input.request input.facts && !decision.killSwitch &&
    !decision.deriskRequired &&
    decide (input.reading.drawdownPct ≤ input.limits.maxDrawdownReleasePct) &&
    accountFlatRecoveryProof host input.facts input.rows

/-- The episode a decision is held against: an open one, or the one it opens. -/
def openedEpisode (input : Evaluation) (decision : RiskDecision)
    (episode : Option KillEpisode) : Option KillEpisode :=
  if decision.killSwitch && !isActive episode then
    some {
      episodeId := input.episodeId
      active := true
      startedAt := input.now
      reason := .decision decision.reasons
      highWatermarkUsd := some input.peakAccountEquity
      status := some .riskReductionRequired }
  else episode

/-- An open episode after an evaluation that closes it or does not. -/
def updatedEpisode (input : Evaluation) (episode : KillEpisode) (release : Bool) : KillEpisode :=
  let manualSymbols := ((input.rows.filter (positionExcludedFromManagedRisk input)).map
    PositionRow.symbol).mergeSort
  let updated := { episode with
    active := !release
    status := some (if release then .released
      else if manualSymbols.isEmpty then .awaitingReconciliationAndOperator
      else .manualReviewRequired)
    unresolvedManualSymbols := manualSymbols }
  if release then { updated with
    releasedAt := some input.now
    releasedBy := some input.request.requestedBy
    recoveryRequestId := some input.request.requestId }
  else updated

/-- The decision that an open episode leaves. -/
def overridden (decision : RiskDecision) : RiskDecision :=
  { decision with
    allowNewRisk := false
    deriskRequired := true
    killSwitch := true
    reasons := decision.reasons ++ [.durableKillEpisode] }

/-- What an evaluation decides, the episode it leaves in memory, and the record after its first
write, which it only makes while an episode is open. -/
structure Applied where
  decision : RiskDecision
  episode : Option KillEpisode
  record : RiskRecord

def applyKillEpisode (input : Evaluation) (record : RiskRecord) (decision : RiskDecision)
    (episode : Option KillEpisode) : Applied :=
  match openedEpisode input decision episode with
  | none => ⟨decision, none, record⟩
  | some opened =>
    if opened.active then
      let release := releases host input record decision opened
      let updated := updatedEpisode input opened release
      { decision := if release then decision else overridden decision
        episode := some updated
        record := {
          killEpisode := some updated
          killSwitch := !release
          consumedRequestId := if release then input.request.requestId
            else host.reread record.consumedRequestId } }
    else ⟨decision, some opened, record⟩

/-- The engine's decision. An unknown valuation cannot make room for new exposure. -/
def engineDecision (input : Evaluation) (memory : Memory) : RiskDecision :=
  let decision := evaluate input.limits memory.highLatencyStart
    { input.reading with previousKillSwitch := memory.killSwitch } input.monotonic
  if input.unknownExposureSymbols.isEmpty then decision
  else { decision with
    allowNewRisk := false
    reasons := decision.reasons ++ [.unknownPositionValuation input.unknownExposureSymbols] }

/-! ### The process and its record -/

/-- A process and the record it keeps. `clock` is the time of the last event. -/
structure System where
  memory : Memory
  record : RiskRecord
  clock : Instant
deriving DecidableEq, Repr

/-- The evaluation up to its first write. -/
def System.applied (system : System) (input : Evaluation) : Applied :=
  applyKillEpisode host input system.record (engineDecision input system.memory)
    system.memory.episode

def evaluateRiskControls (system : System) (input : Evaluation) : System :=
  let applied := system.applied host input
  { memory := {
      episode := applied.episode
      allowNewRisk := applied.decision.allowNewRisk
      deriskRequired := applied.decision.deriskRequired
      killSwitch := applied.decision.killSwitch
      highLatencyStart := highLatencyStart input.limits system.memory.highLatencyStart
        input.reading input.monotonic }
    record := { applied.record with killSwitch := applied.decision.killSwitch }
    clock := input.now }

/-- A start of the process. A kill switch without an episode gets one. -/
def start (record : RiskRecord) (startup : Startup) : System :=
  let restoredKill := isActive record.killEpisode || record.killSwitch
  let episode := if restoredKill && record.killEpisode.isNone then
      some {
        episodeId := startup.episodeId
        active := true
        startedAt := startup.now
        reason := .restoredPersistedKillSwitch }
    else record.killEpisode
  { memory := {
      episode := episode
      allowNewRisk := !restoredKill
      deriskRequired := restoredKill
      killSwitch := restoredKill }
    record := { record with killSwitch := restoredKill, killEpisode := episode }
    clock := startup.now }

inductive Event where
  | evaluated (input : Evaluation)
  /-- The process dies in an evaluation, before or after its first write, and starts again. -/
  | interrupted (input : Evaluation) (written : Bool) (startup : Startup)
  | restarted (startup : Startup)

def step (system : System) : Event → System
  | .evaluated input => evaluateRiskControls host system input
  | .interrupted input written startup =>
    start (if written then (system.applied host input).record else system.record) startup
  | .restarted startup => start system.record startup

/-! ### What an evaluation can do -/

/-- The part of an event that decides and writes an episode. -/
def Event.acting : Event → Option Evaluation
  | .evaluated input => some input
  | .interrupted input written _ => if written then some input else none
  | .restarted _ => none

/-- The check of the kill switch and of the risk engine before an entry, and the reason it gives. -/
def riskBlockReason (memory : Memory) : Option String :=
  if memory.killSwitch then some "kill switch active"
  else if !memory.allowNewRisk then some "risk engine blocked new exposure"
  else none

/-- A record that no version of the trader leaves otherwise: its switch is on only with an open
episode, or with none. -/
def RiskRecord.Consistent (record : RiskRecord) : Prop :=
  record.killSwitch = true → record.killEpisode = none ∨ isActive record.killEpisode = true

/-- Memory and record agree, and an open episode keeps entries blocked. -/
structure System.Sound (system : System) : Prop where
  episode : system.record.killEpisode = system.memory.episode
  recorded : system.record.killSwitch = isActive system.memory.episode
  remembered : system.memory.killSwitch = isActive system.memory.episode
  blocked : isActive system.memory.episode = true →
    system.memory.allowNewRisk = false ∧ system.memory.deriskRequired = true

/-- The evaluation met every condition under which an episode may be closed. -/
structure OperatorRelease (system : System) (input : Evaluation) (episode : KillEpisode) :
    Prop where
  /-- Someone asked for it by name, after the episode began and not later than now. -/
  requested : input.request.requestId ≠ "" ∧ input.request.requestedBy ≠ "" ∧
    ∃ requested, input.request.requestedAt = some requested ∧ episode.startedAt ≤ requested ∧
      requested ≤ input.now ∧ (host.mode = .paper ∨
        ∃ proof, input.facts.reconciliationTime = some proof ∧ requested ≤ proof)
  unused : input.request.requestId ≠ host.reread system.record.consumedRequestId
  /-- Nothing is open, here and as far as the exchange has proved twice. -/
  flat : (∀ row ∈ input.rows, |row.qty| ≤ positionQtyTolerance) ∧
    input.facts.pendingIntents = false ∧
    (host.mode ≠ .paper → input.facts.flatProofReady = true ∧
      2 ≤ input.facts.flatConfirmationCount ∧ input.facts.freshTruthReady = true ∧
      input.facts.economicLedgerReconciled = true)
  recovered : input.reading.drawdownPct ≤ input.limits.maxDrawdownReleasePct
  calm : (engineDecision input system.memory).killSwitch = false ∧
    (engineDecision input system.memory).deriskRequired = false

variable {host}

theorem isActive_some (episode : KillEpisode) : isActive (some episode) = episode.active := rfl

theorem flat_of_accountFlatRecoveryProof {facts : AccountFacts} {rows : List PositionRow}
    (hproof : accountFlatRecoveryProof host facts rows = true) :
    (∀ row ∈ rows, |row.qty| ≤ positionQtyTolerance) ∧ facts.pendingIntents = false ∧
      (host.mode ≠ .paper → facts.flatProofReady = true ∧ 2 ≤ facts.flatConfirmationCount ∧
        facts.freshTruthReady = true ∧ facts.economicLedgerReconciled = true) := by
  unfold accountFlatRecoveryProof at hproof
  split at hproof
  · cases hproof
  · rename_i hrows
    split at hproof
    · cases hproof
    · rename_i hintents
      refine ⟨fun row hrow ↦ ?_, Bool.eq_false_iff.mpr hintents, fun hmode ↦ ?_⟩
      · by_contra hopen
        exact hrows (List.any_eq_true.mpr ⟨row, hrow, decide_eq_true (not_le.mp hopen)⟩)
      · rw [if_neg hmode] at hproof
        simp only [Bool.and_eq_true, decide_eq_true_eq] at hproof
        exact ⟨hproof.1.1.2, hproof.1.2, hproof.1.1.1.1.2, hproof.1.1.1.2⟩

theorem operatorRelease_of_releases {system : System} {input : Evaluation} {episode : KillEpisode}
    (hrelease : releases host input system.record (engineDecision input system.memory) episode
      = true) : OperatorRelease host system input episode := by
  simp only [releases, freshRequest, proofAfterRequest, Bool.and_eq_true, bne_iff_ne, ne_eq,
    Bool.or_eq_true, decide_eq_true_eq, Bool.not_eq_true', Option.any_eq_true] at hrelease
  obtain ⟨⟨⟨⟨⟨⟨⟨⟨hid, hby⟩, requested, hat, hafter, hbefore⟩, hunused⟩, hproof⟩, hkill⟩, hderisk⟩,
    hdrawdown⟩, hflat⟩ := hrelease
  refine ⟨⟨hid, hby, requested, hat, hafter, hbefore, hproof.imp_right ?_⟩, hunused,
    flat_of_accountFlatRecoveryProof hflat, hdrawdown, hkill, hderisk⟩
  rintro ⟨requested', hat', proof, htime, hle⟩
  rw [hat] at hat'
  cases hat'
  exact ⟨proof, htime, hle⟩

@[simp] theorem updatedEpisode_active (input : Evaluation) (episode : KillEpisode)
    (release : Bool) : (updatedEpisode input episode release).active = !release := by
  cases release <;> rfl

@[simp] theorem updatedEpisode_episodeId (input : Evaluation) (episode : KillEpisode)
    (release : Bool) : (updatedEpisode input episode release).episodeId = episode.episodeId := by
  cases release <;> rfl

@[simp] theorem updatedEpisode_startedAt (input : Evaluation) (episode : KillEpisode)
    (release : Bool) : (updatedEpisode input episode release).startedAt = episode.startedAt := by
  cases release <;> rfl

theorem isActive_openedEpisode (input : Evaluation) (decision : RiskDecision)
    (episode : Option KillEpisode) : isActive (openedEpisode input decision episode) =
      (decision.killSwitch || isActive episode) := by
  unfold openedEpisode
  cases hkill : decision.killSwitch <;> cases hactive : isActive episode <;>
    simp [hactive, isActive_some]

theorem openedEpisode_of_active {input : Evaluation} {decision : RiskDecision}
    {episode : Option KillEpisode} (hactive : isActive episode = true) :
    openedEpisode input decision episode = episode := by
  simp [openedEpisode, hactive]

variable (host) in
/-- An evaluation writes nothing while no episode is open. Otherwise it writes the episode it holds
the decision against, closed or not. -/
theorem applyKillEpisode_cases (input : Evaluation) (record : RiskRecord) (decision : RiskDecision)
    (episode : Option KillEpisode) :
    (isActive episode = false ∧ decision.killSwitch = false ∧
      applyKillEpisode host input record decision episode = ⟨decision, episode, record⟩) ∨
    ∃ opened, openedEpisode input decision episode = some opened ∧ opened.active = true ∧
      ∃ release, releases host input record decision opened = release ∧
        applyKillEpisode host input record decision episode =
          { decision := if release then decision else overridden decision
            episode := some (updatedEpisode input opened release)
            record := {
              killEpisode := some (updatedEpisode input opened release)
              killSwitch := !release
              consumedRequestId := if release then input.request.requestId
                else host.reread record.consumedRequestId } } := by
  have hactive := isActive_openedEpisode input decision episode
  cases hopened : openedEpisode input decision episode with
  | none =>
    rw [hopened] at hactive
    obtain ⟨hkill, hold⟩ := Bool.or_eq_false_iff.mp hactive.symm
    have hsame : openedEpisode input decision episode = episode := by simp [openedEpisode, hkill]
    rw [hopened] at hsame
    subst hsame
    exact .inl ⟨rfl, hkill, by simp only [applyKillEpisode, hopened]⟩
  | some opened =>
    rw [hopened, isActive_some] at hactive
    cases hopen : opened.active with
    | false =>
      rw [hopen] at hactive
      obtain ⟨hkill, hold⟩ := Bool.or_eq_false_iff.mp hactive.symm
      have hsame : openedEpisode input decision episode = episode := by
        simp [openedEpisode, hkill]
      refine .inl ⟨hold, hkill, ?_⟩
      simp only [applyKillEpisode, hopened, hopen, Bool.false_eq_true, if_false]
      rw [← hsame, hopened]
    | true =>
      refine .inr ⟨opened, rfl, hopen, _, rfl, ?_⟩
      simp only [applyKillEpisode, hopened, hopen, if_true]

/-! ### Every run -/

theorem sound_start {record : RiskRecord} (hrecord : record.Consistent) (startup : Startup) :
    (start record startup).Sound := by
  cases hepisode : record.killEpisode with
  | none =>
    cases hkill : record.killSwitch <;> constructor <;> simp [start, hepisode, hkill, isActive]
  | some episode =>
    cases hactive : episode.active with
    | true => constructor <;> simp [start, hepisode, hactive, isActive]
    | false =>
      have hswitch : record.killSwitch = false := by
        rw [← Bool.not_eq_true]
        intro hkill
        simpa [hepisode, hactive, isActive] using hrecord hkill
      constructor <;> simp [start, hepisode, hactive, hswitch, isActive]

theorem System.Sound.consistent {system : System} (hsound : system.Sound) :
    system.record.Consistent := by
  intro hkill
  right
  rw [hsound.episode, ← hsound.recorded, hkill]

theorem consistent_applied {system : System} (hsound : system.Sound) (input : Evaluation) :
    (system.applied host input).record.Consistent := by
  rcases applyKillEpisode_cases host input system.record
      (engineDecision input system.memory) system.memory.episode with
    ⟨-, -, happlied⟩ | ⟨opened, -, -, release, -, happlied⟩
  · rw [System.applied, happlied]
    exact hsound.consistent
  · rw [System.applied, happlied]
    intro hkill
    exact .inr (by rw [isActive_some, updatedEpisode_active]; exact hkill)

theorem sound_evaluateRiskControls {system : System} (hsound : system.Sound) (input : Evaluation) :
    (evaluateRiskControls host system input).Sound := by
  rcases applyKillEpisode_cases host input system.record
      (engineDecision input system.memory) system.memory.episode with
    ⟨hactive, hkill, happlied⟩ | ⟨opened, -, -, release, hrelease, happlied⟩
  · constructor <;> simp [evaluateRiskControls, System.applied, happlied, hactive, hkill,
      hsound.episode]
  · cases release with
    | false => constructor <;> simp [evaluateRiskControls, System.applied, happlied, isActive,
        overridden]
    | true =>
      have hcalm := (operatorRelease_of_releases hrelease).calm.1
      constructor <;> simp [evaluateRiskControls, System.applied, happlied, isActive, hcalm]

theorem sound_step {system : System} (hsound : system.Sound) (event : Event) :
    (step host system event).Sound := by
  cases event with
  | evaluated input => exact sound_evaluateRiskControls hsound input
  | interrupted input written startup =>
    cases written
    · exact sound_start hsound.consistent startup
    · exact sound_start (consistent_applied hsound input) startup
  | restarted startup => exact sound_start hsound.consistent startup

theorem sound_run {record : RiskRecord} (hrecord : record.Consistent) (startup : Startup)
    (events : List Event) : (run (step host) (start record startup) events).Sound :=
  invariant_run System.Sound (sound_start hrecord startup) (fun _ event hsound ↦
    sound_step hsound event) events

/-- A start keeps the episode of a record that says with its switch whether it is open. -/
theorem start_episode {record : RiskRecord}
    (hswitch : record.killSwitch = isActive record.killEpisode) (startup : Startup) :
    (start record startup).memory.episode = record.killEpisode := by
  cases hepisode : record.killEpisode with
  | none => simp [start, hepisode, hswitch, isActive]
  | some episode => simp [start, hepisode]

variable (host) in
theorem applied_record {system : System} (hsound : system.Sound) (input : Evaluation) :
    (system.applied host input).record.killEpisode = (system.applied host input).episode ∧
      (system.applied host input).record.killSwitch =
        isActive (system.applied host input).record.killEpisode := by
  rcases applyKillEpisode_cases host input system.record
      (engineDecision input system.memory) system.memory.episode with
    ⟨-, -, happlied⟩ | ⟨opened, -, -, release, -, happlied⟩
  · rw [System.applied, happlied]
    exact ⟨hsound.episode, by rw [hsound.episode]; exact hsound.recorded⟩
  · rw [System.applied, happlied]
    exact ⟨rfl, by simp [isActive]⟩

/-- The episode after an event is the one its evaluation leaves, also when the process dies after
having written it. -/
theorem step_episode {system : System} (hsound : system.Sound) (event : Event) :
    (step host system event).memory.episode =
      match event.acting with
      | some input => (system.applied host input).episode
      | none => system.memory.episode := by
  have hkept : ∀ startup, (start system.record startup).memory.episode = system.memory.episode := by
    intro startup
    rw [start_episode (by rw [hsound.episode]; exact hsound.recorded), hsound.episode]
  cases event with
  | evaluated input => rfl
  | interrupted input written startup =>
    cases written
    · exact hkept startup
    · obtain ⟨hepisode, hswitch⟩ := applied_record host hsound input
      exact (start_episode hswitch startup).trans hepisode
  | restarted startup => exact hkept startup

theorem applied_episode_of_active {system : System} {episode : KillEpisode}
    (hepisode : system.memory.episode = some episode) (hactive : episode.active = true)
    (input : Evaluation) : (system.applied host input).episode =
      some (updatedEpisode input episode
        (releases host input system.record (engineDecision input system.memory) episode)) := by
  have hopened : openedEpisode input (engineDecision input system.memory) system.memory.episode =
      some episode := by
    rw [openedEpisode_of_active (by rw [hepisode]; exact hactive), hepisode]
  rw [System.applied, applyKillEpisode, hopened]
  simp only [hactive, if_true]

variable (host) in
/-- An event leaves an open episode open, with its id and its beginning, or closes it at an
operator's request. -/
theorem step_of_active {system : System} (hsound : system.Sound) {episode : KillEpisode}
    (hepisode : system.memory.episode = some episode) (hactive : episode.active = true)
    (event : Event) :
    (∃ next, (step host system event).memory.episode = some next ∧ next.active = true ∧
      next.episodeId = episode.episodeId ∧ next.startedAt = episode.startedAt) ∨
    ∃ input, event.acting = some input ∧ OperatorRelease host system input episode := by
  rw [step_episode hsound]
  cases hacting : event.acting with
  | none => exact .inl ⟨episode, hepisode, hactive, rfl, rfl⟩
  | some input =>
    cases hrelease :
      releases host input system.record (engineDecision input system.memory) episode with
    | true => exact .inr ⟨input, rfl, operatorRelease_of_releases hrelease⟩
    | false =>
      refine .inl ⟨_, applied_episode_of_active hepisode hactive input, ?_⟩
      simp [hrelease]

/-- An evaluation in which the engine trips the switch leaves an open episode. -/
theorem active_of_trip {system : System} {event : Event} {input : Evaluation}
    (hsound : system.Sound) (hacting : event.acting = some input)
    (htrip : (engineDecision input system.memory).killSwitch = true) :
    isActive (step host system event).memory.episode = true := by
  rw [step_episode hsound, hacting]
  show isActive (applyKillEpisode host input system.record (engineDecision input system.memory)
    system.memory.episode).episode = true
  rcases applyKillEpisode_cases host input system.record
      (engineDecision input system.memory) system.memory.episode with
    ⟨-, hkill, -⟩ | ⟨opened, -, -, release, hrelease, happlied⟩
  · rw [htrip] at hkill
    cases hkill
  · cases release with
    | false => rw [happlied]; simp [isActive]
    | true =>
      have hcalm := (operatorRelease_of_releases hrelease).calm.1
      rw [htrip] at hcalm
      cases hcalm

/-- While an episode is open, entries are refused and the record holds it. -/
theorem held_of_active {system : System} (hsound : system.Sound)
    (hactive : isActive system.memory.episode = true) :
    riskBlockReason system.memory = some "kill switch active" ∧
      system.record.killEpisode = system.memory.episode ∧ system.record.killSwitch = true := by
  refine ⟨?_, hsound.episode, by rw [hsound.recorded, hactive]⟩
  rw [riskBlockReason, hsound.remembered, hactive, if_pos rfl]

/-- A paper trader whose drawdown trips the switch, at a time. -/
def trippedAt (now : Instant) : Evaluation where
  now := now
  episodeId := "kill_1"
  reading := {
    grossExposureUsd := 0
    symbolConcentration := 0
    drawdownPct := 1 / 5
    dataStalenessMinutes := 0
    venueLatencyMs := 0 }

/-- The request by which an event closes the open episode, with the time at which it was made. -/
def usedRequest (host : Host) (system : System) (event : Event) : Option (String × Instant) := do
  let input ← event.acting
  let episode ← system.memory.episode
  let requested ← input.request.requestedAt
  if episode.active &&
      releases host input system.record (engineDecision input system.memory) episode then
    some (input.request.requestId, requested)
  else none

/-- The clock goes forward between two evaluations, and from an evaluation to a start after it. -/
def Forward (system : System) : Event → Prop
  | .evaluated input => system.clock < input.now
  | .interrupted input _ startup => system.clock < input.now ∧ input.now < startup.now
  | .restarted startup => system.clock < startup.now

theorem usedRequest_eq_some {system : System} {event : Event} {used : String × Instant}
    (hused : usedRequest host system event = some used) :
    ∃ input episode, event.acting = some input ∧ system.memory.episode = some episode ∧
      episode.active = true ∧ input.request.requestedAt = some used.2 ∧
      releases host input system.record (engineDecision input system.memory) episode = true := by
  simp only [usedRequest, bind, Option.bind_eq_some_iff, Option.ite_none_right_eq_some,
    Bool.and_eq_true, Option.some.injEq] at hused
  obtain ⟨input, hacting, episode, hepisode, requested, hat, ⟨hactive, hrelease⟩, rfl⟩ := hused
  exact ⟨input, episode, hacting, hepisode, hactive, hat, hrelease⟩

variable (host) in
theorem clock_step {system : System} {event : Event} (hforward : Forward system event) :
    system.clock < (step host system event).clock ∧
      ∀ input, event.acting = some input →
        system.clock < input.now ∧ input.now ≤ (step host system event).clock := by
  cases event with
  | evaluated input => exact ⟨hforward, fun _ hacting ↦ by cases hacting; exact ⟨hforward, le_rfl⟩⟩
  | interrupted input written startup =>
    refine ⟨hforward.1.trans hforward.2, fun acting hacting ↦ ?_⟩
    obtain rfl : input = acting := by
      cases written <;> cases hacting
      rfl
    exact ⟨hforward.1, hforward.2.le⟩
  | restarted startup => exact ⟨hforward, fun _ hacting ↦ nomatch hacting⟩

/-- An event that leaves an open episode used no request, and the episode began with the event or
was open before. -/
theorem step_started {system : System} (hsound : system.Sound) {event : Event}
    (hforward : Forward system event) {next : KillEpisode}
    (hnext : (step host system event).memory.episode = some next) (hopen : next.active = true) :
    usedRequest host system event = none ∧ (system.clock < next.startedAt ∨
      ∃ episode, system.memory.episode = some episode ∧ episode.active = true ∧
        episode.startedAt = next.startedAt) := by
  rw [step_episode hsound] at hnext
  cases hacting : event.acting with
  | none =>
    rw [hacting] at hnext
    exact ⟨by simp [usedRequest, hacting], .inr ⟨next, hnext, hopen, rfl⟩⟩
  | some input =>
    rw [hacting] at hnext
    replace hnext : (applyKillEpisode host input system.record
      (engineDecision input system.memory) system.memory.episode).episode = some next := hnext
    rcases applyKillEpisode_cases host input system.record
        (engineDecision input system.memory) system.memory.episode with
      ⟨hinactive, -, happlied⟩ | ⟨opened, hopened, hactive, release, hrelease, happlied⟩
    · rw [happlied] at hnext
      replace hnext : system.memory.episode = some next := hnext
      rw [hnext, isActive_some, hopen] at hinactive
      cases hinactive
    · rw [happlied] at hnext
      obtain rfl := Option.some.inj hnext
      rw [updatedEpisode_active, Bool.not_eq_true'] at hopen
      subst hopen
      cases hwas : isActive system.memory.episode with
      | true =>
        rw [openedEpisode_of_active hwas] at hopened
        exact ⟨by simp [usedRequest, hacting, hopened, hrelease],
          .inr ⟨opened, hopened, hactive, by simp⟩⟩
      | false =>
        have hstarted : opened.startedAt = input.now := by
          unfold openedEpisode at hopened
          split at hopened
          · obtain rfl := Option.some.inj hopened
            rfl
          · rw [hopened, isActive_some, hactive] at hwas
            cases hwas
        refine ⟨?_, .inl ?_⟩
        · cases hepisode : system.memory.episode with
          | none => simp [usedRequest, hacting, hepisode]
          | some episode =>
            rw [hepisode, isActive_some] at hwas
            simp [usedRequest, hacting, hepisode, hwas]
        · rw [updatedEpisode_startedAt, hstarted]
          exact ((clock_step host hforward).2 input hacting).1

/-- What links the requests used so far to the state: all were made in the past, and before the open
episode began. -/
structure RequestsSpent (system : System) (used : List (String × Instant)) : Prop where
  sound : system.Sound
  past : ∀ request ∈ used, request.2 ≤ system.clock
  earlier : ∀ request ∈ used, ∀ episode, system.memory.episode = some episode →
    episode.active = true → request.2 < episode.startedAt
  increasing : used.Pairwise (fun first second ↦ first.2 < second.2)

theorem requestsSpent_step {system : System} {used : List (String × Instant)} {event : Event}
    (hspent : RequestsSpent system used) (hforward : Forward system event) :
    RequestsSpent (step host system event) (used ++ (usedRequest host system event).toList) := by
  obtain ⟨hclock, hacting⟩ := clock_step host hforward
  have hearlier : ∀ request ∈ used, ∀ next,
      (step host system event).memory.episode = some next → next.active = true →
        request.2 < next.startedAt := by
    intro request hrequest next hnext hopen
    rcases (step_started hspent.sound hforward hnext hopen).2 with
      hlater | ⟨episode, hepisode, hwas, hsame⟩
    · exact (hspent.past request hrequest).trans_lt hlater
    · exact hsame ▸ hspent.earlier request hrequest episode hepisode hwas
  cases hused : usedRequest host system event with
  | none =>
    rw [Option.toList_none, List.append_nil]
    exact ⟨sound_step hspent.sound event, fun request hrequest ↦
      (hspent.past request hrequest).trans hclock.le, hearlier, hspent.increasing⟩
  | some request =>
    obtain ⟨input, episode, hinput, hepisode, hwas, hat, hrelease⟩ := usedRequest_eq_some hused
    obtain ⟨-, -, requested, hrequested, hafter, hbefore, -⟩ :=
      (operatorRelease_of_releases hrelease).requested
    obtain rfl : request.2 = requested := Option.some.inj (hat.symm.trans hrequested)
    have hnow := hacting input hinput
    rw [Option.toList_some]
    refine ⟨sound_step hspent.sound event, ?_, ?_, ?_⟩
    · intro earlier hmem
      rcases List.mem_append.mp hmem with hold | hnew
      · exact (hspent.past earlier hold).trans hclock.le
      · rw [List.mem_singleton.mp hnew]
        exact hbefore.trans hnow.2
    · intro earlier hmem next hnext hopen
      have hnone := (step_started hspent.sound hforward hnext hopen).1
      rw [hused] at hnone
      cases hnone
    · refine List.pairwise_append.mpr ⟨hspent.increasing, List.pairwise_singleton _ _, ?_⟩
      intro earlier hold last hlast
      rw [List.mem_singleton.mp hlast]
      exact (hspent.earlier earlier hold episode hepisode hwas).trans_le hafter

/-- Every episode is closed by a request of its own: in a run whose clock goes forward, the requests
by which episodes are closed were made at ever later times, whatever ids they carry, whatever the
record gives back for an id, and wherever the process dies. -/
theorem release_requests_increase (host : Host) (record : RiskRecord)
    (hrecord : record.Consistent) (startup : Startup) (events : List Event)
    (hforward : Along (step host) Forward (start record startup) events) :
    (logOf (step host) (usedRequest host) (start record startup) events).Pairwise
      (fun first second ↦ first.2 < second.2) := by
  have hstart : RequestsSpent (start record startup) [] :=
    ⟨sound_start hrecord startup, fun _ hrequest ↦ absurd hrequest List.not_mem_nil,
      fun _ hrequest ↦ absurd hrequest List.not_mem_nil, List.Pairwise.nil⟩
  exact (invariant_log (usedRequest host) RequestsSpent hstart
    (fun _ _ _ hspent hevent ↦ requestsSpent_step hspent hevent) hforward).increasing

/-- An account that recovered, with a request made one instant before. -/
def recoveredAt (now : Instant) (requestId : String) : Evaluation where
  now := now
  reading := {
    grossExposureUsd := 0
    symbolConcentration := 0
    drawdownPct := 0
    dataStalenessMinutes := 0
    venueLatencyMs := 0 }
  request := { requestId, requestedBy := "operator", requestedAt := some (now - 1) }

instance (system : System) (event : Event) : Decidable (Forward system event) := by
  cases event <;> unfold Forward <;> infer_instance

/-- Two episodes, each closed by its own request. -/
theorem release_requests_of_two_episodes :
    let events := [.evaluated (trippedAt 1), .evaluated (recoveredAt 3 "first"),
      .interrupted (trippedAt 4) true ⟨5, ""⟩, .evaluated (recoveredAt 7 "second")]
    let used := logOf (step ⟨.paper, id⟩) (usedRequest ⟨.paper, id⟩) (start {} ⟨0, ""⟩) events
    used = [("first", 2), ("second", 6)] ∧ used.Pairwise (fun first second ↦ first.2 < second.2) :=
  ⟨by decide +kernel, release_requests_increase ⟨.paper, id⟩ {} (fun hkill ↦ nomatch hkill) ⟨0, ""⟩
    _ (by decide +kernel)⟩

end Bongus.Trader
