import Bongus.Engine.ContinuousRisk

/-!
# One liquidation in an episode

While the risk is being reduced the engine liquidates what it tracks, and the fills of a liquidation
do not reduce what it tracks. That a symbol is liquidated once rests on the name of its exit, which
is made of the symbol and of the number of the risk transition. `Episodic` says that the exits which
the engine began on its own carry the present number and their own name; then no further exit of a
symbol is begun (`liquidated_once`), as long as nothing gives the present reduction of risk a new
number: a recovery barrier that is released, or a command for another exit
(`RiskEvent.KeepsEpisode`). After a barrier the same inventory is liquidated again
(`barrier_liquidates_twice`).
-/

set_option autoImplicit false
set_option relaxedAutoImplicit false

namespace Bongus.Engine

open Lib Lib.Runs Ipc

/-- The exits the engine began on its own belong to the present reduction of risk, and are held under
the name of their symbol in it. -/
structure Episodic (env : RiskEnvironment) (manager : RiskActor) : Prop where
  before : manager.continuousRiskState ≠ .derisking → manager.continuousRiskState ≠ .manualReview →
    ∀ intentId record, manager.emergencyExits.lookup intentId = some record →
      record.autonomousRiskSequence = none
  within : manager.continuousRiskState = .derisking →
    ∀ intentId record, manager.emergencyExits.lookup intentId = some record →
      record.autonomousRiskSequence.isSome →
        record.autonomousRiskSequence = some manager.continuousRiskSequence ∧
          intentId = RiskActor.autonomousEmergencyIntentId env record.symbol
            manager.continuousRiskSequence

/-- The engine has liquidated a symbol on its own, or is doing so. -/
def Liquidated (manager : RiskActor) (symbol : String) : Prop :=
  ∃ intentId record, manager.emergencyExits.lookup intentId = some record ∧
    record.symbol = symbol ∧ record.autonomousRiskSequence.isSome

/-- The exits of a symbol after a step are among those before it. -/
def NoNewExit (symbol : String) (before after : RiskActor) : Prop :=
  ∀ intentId record, after.emergencyExits.lookup intentId = some record → record.symbol = symbol →
    ∃ earlier, before.emergencyExits.lookup intentId = some earlier ∧ earlier.symbol = symbol

theorem NoNewExit.refl (symbol : String) (manager : RiskActor) :
    NoNewExit symbol manager manager :=
  fun _ record hrecord hsymbol ↦ ⟨record, hrecord, hsymbol⟩

theorem NoNewExit.trans {symbol : String} {first second third : RiskActor}
    (hfirst : NoNewExit symbol first second) (hsecond : NoNewExit symbol second third) :
    NoNewExit symbol first third := by
  intro intentId record hrecord hsymbol
  obtain ⟨middle, hmiddle, hsame⟩ := hsecond intentId record hrecord hsymbol
  exact hfirst intentId middle hmiddle hsame

/-! ### Steps that leave the exits alone -/

namespace SameExits

variable {before after : RiskActor} (hexits : SameExits before after)

include hexits

/-- An exit after the step has the symbol and the episode it had before. -/
theorem earlier {intentId : String} {record : EmergencyExitRecord}
    (hrecord : after.emergencyExits.lookup intentId = some record) :
    ∃ held, before.emergencyExits.lookup intentId = some held ∧ held.symbol = record.symbol ∧
      held.autonomousRiskSequence = record.autonomousRiskSequence := by
  have hsame := hexits intentId
  rw [hrecord, Option.map_some] at hsame
  obtain ⟨held, hheld, hidentity⟩ := Option.map_eq_some_iff.mp hsame.symm
  rw [Prod.mk.injEq] at hidentity
  exact ⟨held, hheld, hidentity.1, hidentity.2⟩

theorem symm : SameExits after before := fun intentId ↦ (hexits intentId).symm

theorem noNewExit (symbol : String) : NoNewExit symbol before after := by
  intro intentId record hrecord hsymbol
  obtain ⟨held, hheld, hsame, -⟩ := hexits.earlier hrecord
  exact ⟨held, hheld, hsame.trans hsymbol⟩

theorem liquidated {symbol : String} (hliquidated : Liquidated before symbol) :
    Liquidated after symbol := by
  obtain ⟨intentId, record, hrecord, hsymbol, hautonomous⟩ := hliquidated
  obtain ⟨held, hheld, hsame, hepisode⟩ := hexits.symm.earlier hrecord
  exact ⟨intentId, held, hheld, hsame.trans hsymbol, by rwa [hepisode]⟩

/-- The exits stay those of the episode when the episode stays, and there are none when it
begins. -/
theorem episodic {env : RiskEnvironment} (hepisodic : Episodic env before)
    (habsorbs : before.continuousRiskState.Absorbs after.continuousRiskState)
    (hsequence : before.continuousRiskState = .derisking →
      after.continuousRiskState = .derisking →
        after.continuousRiskSequence = before.continuousRiskSequence) :
    Episodic env after := by
  constructor
  · intro hderisking hreview intentId record hrecord
    obtain ⟨held, hheld, -, hepisode⟩ := hexits.earlier hrecord
    rw [← hepisode]
    refine hepisodic.before (fun hbefore ↦ ?_) (fun hbefore ↦ ?_) intentId held hheld
    · exact (habsorbs.2 hbefore).elim hderisking hreview
    · exact hreview (habsorbs.1 hbefore)
  · intro hderisking intentId record hrecord hautonomous
    obtain ⟨held, hheld, hsymbol, hepisode⟩ := hexits.earlier hrecord
    rw [← hepisode] at hautonomous ⊢
    by_cases hbefore : before.continuousRiskState = .derisking
    · rw [hsequence hbefore hderisking, ← hsymbol]
      exact hepisodic.within hbefore intentId held hheld hautonomous
    · -- The reduction of risk begins with this step, and no exit is the engine's own yet.
      have hreview : before.continuousRiskState ≠ .manualReview := by
        intro hreview
        rw [habsorbs.1 hreview] at hderisking
        cases hderisking
      rw [hepisodic.before hbefore hreview intentId held hheld] at hautonomous
      cases hautonomous

end SameExits

/-! ### Moves -/

section Moves

variable {env : RiskEnvironment} {before after : RiskActor}

theorem RiskMove.episodic (hmove : RiskMove env before after) (hepisodic : Episodic env before) :
    Episodic env after := by
  have habsorbs := hmove.absorbs
  cases hmove with
  | keep hrisk hsequence hexits => exact hexits.episodic hepisodic habsorbs fun _ _ ↦ hsequence
  | review hrisk hexits =>
    refine hexits.episodic hepisodic habsorbs fun _ hderisking ↦ ?_
    rw [hrisk] at hderisking
    cases hderisking
  | escalate hallowed hexits =>
    refine hexits.episodic hepisodic habsorbs fun hbefore hderisking ↦ ?_
    rw [hbefore, hderisking] at hallowed
    cases hallowed
  | clear hderisking hreview hrisk hexits =>
    exact hexits.episodic hepisodic habsorbs fun hbefore ↦ absurd hbefore hderisking
  | begin record hderisking hrisk hsequence hautonomous hnew hexits =>
    constructor
    · intro hafter
      rw [hrisk] at hafter
      exact absurd hderisking hafter
    · intro _ intentId held hheld hown
      rw [hexits, HashMap.lookup_insert_ite] at hheld
      rw [hsequence]
      split_ifs at hheld with hsame
      · cases hheld
        exact ⟨hautonomous, hsame⟩
      · exact hepisodic.within hderisking intentId held hheld hown

/-- A symbol that has been liquidated in the episode gets no further exit: its name is taken. -/
theorem RiskMove.liquidated (hmove : RiskMove env before after) (hepisodic : Episodic env before)
    {symbol : String} (hliquidated : Liquidated before symbol) :
    Liquidated after symbol ∧ NoNewExit symbol before after := by
  cases hmove with
  | keep _ _ hexits => exact ⟨hexits.liquidated hliquidated, hexits.noNewExit symbol⟩
  | review _ hexits => exact ⟨hexits.liquidated hliquidated, hexits.noNewExit symbol⟩
  | escalate _ hexits => exact ⟨hexits.liquidated hliquidated, hexits.noNewExit symbol⟩
  | clear _ _ _ hexits => exact ⟨hexits.liquidated hliquidated, hexits.noNewExit symbol⟩
  | begin record hderisking hrisk hsequence hautonomous hnew hexits =>
    obtain ⟨held, earlier, hearlier, hsymbol, hown⟩ := hliquidated
    obtain ⟨-, hname⟩ := hepisodic.within hderisking held earlier hearlier hown
    have hother : held ≠ RiskActor.autonomousEmergencyIntentId env record.symbol
        before.continuousRiskSequence := by
      rintro rfl
      rw [hnew] at hearlier
      cases hearlier
    refine ⟨⟨held, earlier, ?_, hsymbol, hown⟩, fun intentId found hfound hsame ↦ ?_⟩
    · rw [hexits, HashMap.lookup_insert_ite, if_neg hother, hearlier]
    · rw [hexits, HashMap.lookup_insert_ite] at hfound
      split_ifs at hfound with hnamed
      · cases hfound
        rw [hsymbol, ← hsame] at hname
        exact absurd hname hother
      · exact ⟨found, hfound, hsame⟩

theorem RiskMoves.episodic (hmoves : RiskMoves env before after) (hepisodic : Episodic env before) :
    Episodic env after := by
  induction hmoves with
  | refl => exact hepisodic
  | tail _ hmove ih => exact hmove.episodic ih

theorem RiskMoves.liquidated (hmoves : RiskMoves env before after) (hepisodic : Episodic env before)
    {symbol : String} (hliquidated : Liquidated before symbol) :
    Liquidated after symbol ∧ NoNewExit symbol before after := by
  induction hmoves with
  | refl => exact ⟨hliquidated, NoNewExit.refl symbol before⟩
  | tail hmoves hmove ih =>
    obtain ⟨hstill, hnone⟩ := hmove.liquidated (RiskMoves.episodic hmoves hepisodic) ih.1
    exact ⟨hstill, ih.2.trans hnone⟩

end Moves

/-! ### Runs -/

namespace RiskActor

variable (env : RiskEnvironment) (manager : RiskActor)

theorem emergencyExits_persistExecutionState (context : String) :
    (manager.persistExecutionState env context).2.emergencyExits = manager.emergencyExits := by
  unfold persistExecutionState tryPersistExecutionState
  cases env.persisted manager.asked <;> rfl

theorem emergencyExits_failRecoveryBarrier (requestId reason : String) :
    (manager.failRecoveryBarrier env requestId reason).emergencyExits = manager.emergencyExits := by
  unfold failRecoveryBarrier
  exact emergencyExits_persistExecutionState env _ _

theorem emergencyExits_prepareRecoveryBarrier (requestId : String) (sources : Except String Unit) :
    (manager.prepareRecoveryBarrier env requestId sources).2.emergencyExits =
      manager.emergencyExits := by
  unfold prepareRecoveryBarrier
  split
  · rfl
  · split
    · rfl
    · dsimp only
      split <;> split <;> exact emergencyExits_persistExecutionState env (manager.enterRisk _ _ _) _

theorem emergencyExits_releaseRecoveryBarrier (state : ContinuousRiskState)
    (reason requestId : String) (release : RecoveryBarrierRelease) :
    (manager.releaseRecoveryBarrier env state reason requestId release).2.emergencyExits =
      manager.emergencyExits := by
  unfold releaseRecoveryBarrier
  split
  · unfold restoreAfterRecoveryBarrier
    split
    · exact emergencyExits_failRecoveryBarrier env manager _ _
    · exact emergencyExits_persistExecutionState env (manager.enterRisk _ _ _) _
  · exact emergencyExits_failRecoveryBarrier env manager _ _
  · exact emergencyExits_failRecoveryBarrier env manager _ _

/-- A barrier leaves the exits alone. -/
theorem emergencyExits_handleRecoveryBarrierEvent (barrier : RecoveryBarrier) :
    (manager.handleRecoveryBarrierEvent env barrier).emergencyExits = manager.emergencyExits := by
  have hprepared :=
    emergencyExits_prepareRecoveryBarrier env manager barrier.requestId barrier.sources
  unfold handleRecoveryBarrierEvent
  split
  · rename_i hprepare
    rw [hprepare] at hprepared
    rw [emergencyExits_failRecoveryBarrier, hprepared]
  · rename_i hprepare
    rw [hprepare] at hprepared
    split
    · rw [emergencyExits_failRecoveryBarrier, hprepared]
    · dsimp only
      split
      · rw [emergencyExits_failRecoveryBarrier, emergencyExits_releaseRecoveryBarrier, hprepared]
      · rw [emergencyExits_releaseRecoveryBarrier, hprepared]

/-- A command that begins an exit adds one that is not the engine's own. -/
theorem emergencyExits_beginEmergencyExit {instruction : AlphaInstruction} {symbol : String}
    {record : EmergencyExitRecord}
    (hadmitted : manager.admitEmergencyExit env instruction symbol none "emergency route accepted" =
      .ok (some record)) :
    (manager.beginEmergencyExit env instruction symbol).2.emergencyExits =
        manager.emergencyExits.insert record.intentId record ∧
      record.autonomousRiskSequence = none := by
  obtain ⟨-, -, -, -, quantities, slippage, -, -, hrecord⟩ := of_admitEmergencyExit hadmitted
  refine ⟨?_, by rw [hrecord]; rfl⟩
  unfold beginEmergencyExit beginEmergencyExitForRisk
  rw [hadmitted]
  rfl

end RiskActor

namespace RiskEvent

variable {env : RiskEnvironment} {manager : RiskActor} {event : RiskEvent}

/-- The event does not give a reduction of risk a new number: it is no barrier during one, and no
command begins an exit during one or under the review it can end in. -/
def KeepsEpisode (env : RiskEnvironment) (manager : RiskActor) (event : RiskEvent) : Prop :=
  (manager.continuousRiskState = .derisking → ∀ barrier, event ≠ .recoveryBarrier barrier) ∧
    (manager.continuousRiskState = .derisking ∨ manager.continuousRiskState = .manualReview →
      ¬ event.BeginsExit env manager)

/-- A barrier outside of a reduction of risk. -/
theorem KeepsEpisode.barrier {barrier : RecoveryBarrier}
    (hkeeps : KeepsEpisode env manager (.recoveryBarrier barrier))
    (hepisodic : Episodic env manager) :
    Episodic env (manager.handleRecoveryBarrierEvent env barrier) ∧
      SameExits manager (manager.handleRecoveryBarrierEvent env barrier) := by
  have hexits : SameExits manager (manager.handleRecoveryBarrierEvent env barrier) := by
    intro intentId
    rw [manager.emergencyExits_handleRecoveryBarrierEvent env barrier]
  have habsorbs := (absorbs_apply_iff env manager (.recoveryBarrier barrier)).mpr fun h ↦ h.2
  refine ⟨hexits.episodic hepisodic habsorbs fun hderisking ↦ ?_, hexits⟩
  exact absurd rfl (hkeeps.1 hderisking barrier)

theorem KeepsEpisode.episodic (hkeeps : KeepsEpisode env manager event)
    (hepisodic : Episodic env manager) : Episodic env (event.apply env manager) := by
  by_cases hbegins : event.BeginsExit env manager
  · cases event with
    | emergencyCommand instruction symbol =>
      obtain ⟨record, hadmitted⟩ := hbegins
      obtain ⟨hexits, hcommand⟩ := manager.emergencyExits_beginEmergencyExit env hadmitted
      have hderisking : manager.continuousRiskState ≠ .derisking := fun h ↦
        hkeeps.2 (Or.inl h) ⟨record, hadmitted⟩
      have hreview : manager.continuousRiskState ≠ .manualReview := fun h ↦
        hkeeps.2 (Or.inr h) ⟨record, hadmitted⟩
      have hnone : ∀ intentId held,
          (manager.beginEmergencyExit env instruction symbol).2.emergencyExits.lookup intentId =
            some held → held.autonomousRiskSequence = none := by
        intro intentId held hheld
        rw [hexits, HashMap.lookup_insert_ite] at hheld
        split_ifs at hheld
        · cases hheld
          exact hcommand
        · exact hepisodic.before hderisking hreview intentId held hheld
      refine ⟨fun _ _ ↦ hnone, fun _ intentId held hheld hown ↦ ?_⟩
      rw [hnone intentId held hheld] at hown
      cases hown
    | _ => exact hbegins.elim
  · by_cases hbarrier : ∃ barrier, event = .recoveryBarrier barrier
    · obtain ⟨barrier, rfl⟩ := hbarrier
      exact (hkeeps.barrier hepisodic).1
    · exact (moves_apply env manager event (fun barrier h ↦ hbarrier ⟨barrier, h⟩)
        hbegins).episodic hepisodic

theorem KeepsEpisode.liquidated (hkeeps : KeepsEpisode env manager event)
    (hepisodic : Episodic env manager) {symbol : String}
    (hliquidated : Liquidated manager symbol) :
    Liquidated (event.apply env manager) symbol ∧
      NoNewExit symbol manager (event.apply env manager) := by
  by_cases hbegins : event.BeginsExit env manager
  · -- Before a reduction of risk there is no exit of the engine's own.
    obtain ⟨intentId, record, hrecord, -, hown⟩ := hliquidated
    have hbefore := hepisodic.before (fun h ↦ hkeeps.2 (Or.inl h) hbegins)
      (fun h ↦ hkeeps.2 (Or.inr h) hbegins) intentId record hrecord
    rw [hbefore] at hown
    cases hown
  · by_cases hbarrier : ∃ barrier, event = .recoveryBarrier barrier
    · obtain ⟨barrier, rfl⟩ := hbarrier
      have hexits := (hkeeps.barrier hepisodic).2
      exact ⟨hexits.liquidated hliquidated, hexits.noNewExit symbol⟩
    · exact (moves_apply env manager event (fun barrier h ↦ hbarrier ⟨barrier, h⟩)
        hbegins).liquidated hepisodic hliquidated

theorem liquidated_run {start : RiskActor} {events : List RiskEvent} (hstart : Episodic env start)
    (hkeeps : Along (apply env) (KeepsEpisode env) start events) {symbol : String}
    (hliquidated : Liquidated start symbol) :
    NoNewExit symbol start (run (apply env) start events) := by
  induction events generalizing start with
  | nil => exact NoNewExit.refl symbol start
  | cons event rest ih =>
    obtain ⟨hstill, hnone⟩ := hkeeps.1.liquidated hstart hliquidated
    exact hnone.trans (ih (hkeeps.1.episodic hstart) hkeeps.2 hstill)

/-- A symbol that the engine has liquidated gets no further exit, along every run that does not give
a reduction of risk a new number. -/
theorem liquidated_once {start : RiskActor} {first later : List RiskEvent}
    (hstart : Episodic env start)
    (hkeeps : Along (apply env) (KeepsEpisode env) start (first ++ later))
    {intentId : String} {record : EmergencyExitRecord}
    (hrecord : (run (apply env) start first).emergencyExits.lookup intentId = some record)
    (hautonomous : record.autonomousRiskSequence.isSome) :
    NoNewExit record.symbol (run (apply env) start first)
      (run (apply env) start (first ++ later)) := by
  rw [along_append] at hkeeps
  have hepisodic : Episodic env (run (apply env) start first) :=
    invariant_run_of_along (Episodic env) hstart
      (fun _ _ hepisodic hkeeps ↦ hkeeps.episodic hepisodic) hkeeps.1
  rw [run_append]
  exact liquidated_run hepisodic hkeeps.2 ⟨intentId, record, hrecord, rfl, hautonomous⟩

/-- An engine that has begun no exit. -/
theorem episodic_of_empty {start : RiskActor} (hempty : start.emergencyExits = ∅) :
    Episodic env start := by
  constructor
  · intro _ _ intentId record hrecord
    rw [hempty, Finmap.lookup_empty] at hrecord
    cases hrecord
  · intro _ intentId record hrecord
    rw [hempty, Finmap.lookup_empty] at hrecord
    cases hrecord

/-- An event that is neither a barrier nor a command for an exit. -/
def isQuiet : RiskEvent → Bool
  | .recoveryBarrier _ | .emergencyCommand _ _ => false
  | _ => true

theorem keepsEpisode_of_isQuiet (hquiet : event.isQuiet = true) :
    KeepsEpisode env manager event := by
  cases event with
  | recoveryBarrier barrier => cases hquiet
  | emergencyCommand instruction symbol => cases hquiet
  | _ => exact ⟨fun _ _ ↦ RiskEvent.noConfusion, fun _ ↦ id⟩

theorem along_keepsEpisode {start : RiskActor} {events : List RiskEvent}
    (hquiet : events.all isQuiet = true) :
    Along (apply env) (KeepsEpisode env) start events := by
  rw [along_iff]
  intro before event after hsplit
  refine keepsEpisode_of_isQuiet (List.all_eq_true.mp hquiet event ?_)
  rw [hsplit]
  simp

/-! ### A bitcoin liquidated twice -/

/-- An engine that holds one bitcoin, hedged. -/
def bitcoinHolder : RiskActor where
  trackedPositions := Finmap.singleton "BTCUSDT"
    { symbol := "BTCUSDT"
      spot := some ⟨"LONG", 100, 1, 0, 100⟩
      perp := some ⟨"SHORT", 100, 1, 0, 100⟩ }

/-- An evaluation that finds the exposure too large. -/
def exposureEvaluation : List RiskEvent :=
  [.freezeEntries "gross_exposure_limit" .derisking,
    .concludeActivation "gross_exposure_limit" .derisking true false]

/-- The name of the exit of bitcoin under a number of the risk. -/
def bitcoinExit (riskSequence : ℕ) : String :=
  RiskActor.autonomousEmergencyIntentId .calm "BTCUSDT" riskSequence

/-- The evaluation, and the exit it begins driven until it is flat. -/
def bitcoinLiquidation : List RiskEvent :=
  exposureEvaluation ++
    [.transitionExit (bitcoinExit 4) .cancelingCurrentOrders "cancel",
      .transitionExit (bitcoinExit 4) .signedReadback "readback",
      .transitionExit (bitcoinExit 4) .inventoryClassified "classified",
      .transitionExit (bitcoinExit 4) .reduceOnlyDerisking "quantities",
      .transitionExit (bitcoinExit 4) .verifyingFlat "verify",
      .transitionExit (bitcoinExit 4) .flat "flat",
      .endEvaluation none]

/-- The next evaluation does not liquidate the bitcoin again. -/
theorem liquidated_once_bitcoin :
    ∃ record, (run (apply .calm) bitcoinHolder bitcoinLiquidation).emergencyExits.lookup
        (bitcoinExit 4) = some record ∧ record.symbol = "BTCUSDT" ∧ record.state = .flat ∧
      NoNewExit record.symbol (run (apply .calm) bitcoinHolder bitcoinLiquidation)
        (run (apply .calm) bitcoinHolder (bitcoinLiquidation ++ exposureEvaluation)) := by
  have hflat : ((run (apply .calm) bitcoinHolder bitcoinLiquidation).emergencyExits.lookup
      (bitcoinExit 4)).any (fun record ↦ record.symbol = "BTCUSDT" ∧ record.state = .flat ∧
        record.autonomousRiskSequence.isSome) = true := by
    decide +kernel
  cases hrecord : (run (apply .calm) bitcoinHolder bitcoinLiquidation).emergencyExits.lookup
      (bitcoinExit 4) with
  | none =>
    rw [hrecord] at hflat
    cases hflat
  | some record =>
    rw [hrecord] at hflat
    obtain ⟨hsymbol, hstate, hown⟩ := of_decide_eq_true hflat
    exact ⟨record, rfl, hsymbol, hstate,
      liquidated_once (episodic_of_empty rfl) (along_keepsEpisode rfl) hrecord hown⟩

/-- A recovery barrier that is released between two evaluations gives the reduction of risk a new
number, and the second evaluation begins to liquidate the same bitcoin again. -/
theorem barrier_liquidates_twice :
    let flat := run (apply .calm) bitcoinHolder bitcoinLiquidation
    let released := run (apply .calm) flat
      [.recoveryBarrier ⟨"generation-1", .ok (), true, .published "generation-1", true⟩]
    let again := run (apply .calm) released exposureEvaluation
    ((flat.emergencyExits.lookup (bitcoinExit 4)).map EmergencyExitRecord.state = some .flat ∧
        flat.emergencyExits.lookup (bitcoinExit 6) = none) ∧
      released.continuousRiskState = .derisking ∧
      again.trackedPositions = flat.trackedPositions ∧ again.continuousRiskState = .derisking ∧
      (again.emergencyExits.lookup (bitcoinExit 6)).map (fun record ↦
          (record.symbol, record.state, record.exitSpotQuantityDecimal)) =
        some ("BTCUSDT", .detected, "1") := by
  decide +kernel

end RiskEvent

end Bongus.Engine
