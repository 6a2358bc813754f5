import Bongus.Lib.Dictionary
import Bongus.Lib.Runs
import Bongus.Lib.Fallible
import Bongus.Lib.Text
import Mathlib.Algebra.BigOperators.Group.List.Basic
import Mathlib.Algebra.Order.Field.Rat
import Mathlib.Data.List.Sort
import Mathlib.Data.Prod.Lex
import Mathlib.Data.Rat.Cast.Order
import Mathlib.Data.String.Basic

/-!
# Funding settlements against the exchange

`bongus/market_data/settlement_lifecycle.py`: the lifecycle keeps the windows in which positions
were open and the funding rates with the times at which they were available, and says for one
settlement whether the exchange paid what the positions should get.

Times are instants in microseconds, and decimals are exact. How Python compares two windows or two
rates is a parameter (`Comparisons`), as it compares the values from which the decimals are read.

A verdict that the settlement is reconciled is justified if there is a rate, and exactly then unless
a statement refutes it (`verdict_sound_iff`). Without a rate a position with no payment at all is
reported as reconciled (`reconciled_without_rate`).
-/

set_option autoImplicit false
set_option relaxedAutoImplicit false

namespace Bongus.Funding

open Lib.Dictionary Lib.Fallible Lib.Runs Lib.Text

def strip (text : String) : String := trim separatorBlank text

inductive FundingDirection where
  | longSpotShortPerp
  | shortSpotLongPerp
deriving DecidableEq, Repr

def FundingDirection.sign : FundingDirection → ℚ
  | .longSpotShortPerp => 1
  | .shortSpotLongPerp => -1

structure PositionEligibilityWindow where
  cycleId : String
  symbol : String
  direction : FundingDirection
  fundingNotionalUsd : ℚ
  openedAt : ℤ
  closedAt : Option ℤ := none
  named : strip cycleId ≠ "" ∧ strip symbol ≠ ""
  notional_pos : 0 < fundingNotionalUsd
  closed_later : ∀ closed ∈ closedAt, openedAt ≤ closed

def PositionEligibilityWindow.eligibleAt (window : PositionEligibilityWindow)
    (settlement : ℤ) : Bool :=
  window.openedAt < settlement && window.closedAt.all fun closed ↦ settlement ≤ closed

structure SettlementRateUpdate where
  symbol : String
  settlementTime : ℤ
  availableAt : ℤ
  rawRate : ℚ
  sourceEventId : String
  named : strip symbol ≠ "" ∧ strip sourceEventId ≠ ""

structure SettlementLifecycleResult where
  symbol : String
  settlementTime : ℤ
  eligibleCycleIds : List String
  eligibleNotionalUsd : ℚ
  appliedRate : Option ℚ
  rateAvailableAt : Option ℤ
  expectedCashUsd : ℚ
  creditedCashUsd : ℚ
  exchangeEventId : String
  reconciled : Bool
  reasonCodes : List String
deriving DecidableEq

/-- `==` of two windows and of two rates, as Python compares their fields. -/
structure Comparisons where
  windows : PositionEligibilityWindow → PositionEligibilityWindow → Bool
  rates : SettlementRateUpdate → SettlementRateUpdate → Bool

structure FundingSettlementLifecycle where
  windows : List (String × PositionEligibilityWindow) := []
  rates : List (String × SettlementRateUpdate) := []

namespace FundingSettlementLifecycle

variable (comparisons : Comparisons) (upper : String → String)
  (lifecycle : FundingSettlementLifecycle)

def addWindow (window : PositionEligibilityWindow) : Except String FundingSettlementLifecycle :=
  if (lifecycle.windows.lookup window.cycleId).any fun prior ↦
      !comparisons.windows prior window then
    throw ("cycle window identity collision: " ++ window.cycleId)
  else return { lifecycle with windows := assign lifecycle.windows window.cycleId window }

def observeRate (update : SettlementRateUpdate) : Except String FundingSettlementLifecycle :=
  if (lifecycle.rates.lookup update.sourceEventId).any fun prior ↦
      !comparisons.rates prior update then
    throw ("settlement-rate identity collision: " ++ update.sourceEventId)
  else return { lifecycle with rates := assign lifecycle.rates update.sourceEventId update }

/-- The windows of a symbol that are open at a settlement, in no order. -/
def openWindows (symbol : String) (settlement : ℤ) : List PositionEligibilityWindow :=
  (lifecycle.windows.map Prod.snd).filter fun window ↦
    upper window.symbol = symbol && window.eligibleAt settlement

def eligibleWindows (symbol : String) (settlement : ℤ) : List PositionEligibilityWindow :=
  (lifecycle.openWindows upper symbol settlement).insertionSort fun first second ↦
    first.cycleId ≤ second.cycleId

/-- The rates for a settlement that were available by then, in no order. -/
def knownUpdates (symbol : String) (settlement : ℤ) : List SettlementRateUpdate :=
  (lifecycle.rates.map Prod.snd).filter fun update ↦
    upper update.symbol = symbol && update.settlementTime = settlement &&
      update.availableAt ≤ settlement

end FundingSettlementLifecycle

/-- The key by which rates are sorted. -/
def SettlementRateUpdate.key (update : SettlementRateUpdate) : ℤ ×ₗ String :=
  toLex (update.availableAt, update.sourceEventId)

/-- The cash that windows get at a rate. -/
def expectedCash (rate : ℚ) (windows : List PositionEligibilityWindow) : ℚ :=
  (windows.map fun window ↦ window.direction.sign * rate * window.fundingNotionalUsd).sum

/-- The arguments of `evaluate`. A decimal that cannot be read is the error that reading it
raises. -/
structure Evaluation where
  symbol : String
  settlementTime : ℤ
  exchangeAmountUsd : Option (Except String ℚ) := none
  exchangeEventId : String := ""
  cashToleranceUsd : Except String ℚ := .ok (1 / 100)

def Evaluation.statementPresent (evaluation : Evaluation) : Bool :=
  evaluation.exchangeAmountUsd.isSome || strip evaluation.exchangeEventId ≠ ""

/-- The verdict and what is added to the reasons for it. -/
def verdict (eligible : List PositionEligibilityWindow) (appliedRate : Option ℚ)
    (statementPresent : Bool) (expected credited tolerance : ℚ) : Bool × List String :=
  if eligible ≠ [] ∧ appliedRate.isSome then
    if !statementPresent then (false, ["missing_exchange_funding_statement"])
    else if tolerance < |credited - expected| then (false, ["exchange_amount_mismatch"])
    else (true, [])
  else if statementPresent ∧ tolerance < |credited| then
    (false, ["unexpected_exchange_funding_statement"])
  else (true, [])

/-- What is wrong with the windows and rates alone. -/
def inputReasons (eligible : List PositionEligibilityWindow) (updates : List SettlementRateUpdate) :
    List String :=
  (if eligible = [] then ["ineligible_at_settlement"] else []) ++
    (if updates = [] then ["missing_point_in_time_rate"] else []) ++
    match updates.head?, updates.getLast? with
    | some first, some last =>
      if 2 ≤ updates.length ∧ first.rawRate * last.rawRate < 0 then
        ["rate_reversed_before_settlement"]
      else []
    | _, _ => []

def evaluate (upper : String → String) (lifecycle : FundingSettlementLifecycle)
    (evaluation : Evaluation) : Except String SettlementLifecycleResult := do
  let symbol := upper (strip evaluation.symbol)
  if symbol = "" then throw "symbol is required"
  let settlement := evaluation.settlementTime
  let tolerance ← evaluation.cashToleranceUsd
  if tolerance < 0 then throw "cash_tolerance_usd must be non-negative"
  let eligible := lifecycle.eligibleWindows upper symbol settlement
  let updates := (lifecycle.knownUpdates upper symbol settlement).insertionSort
    fun first second ↦ first.key ≤ second.key
  let applied := updates.getLast?
  let expected := applied.elim 0 fun update ↦ expectedCash update.rawRate eligible
  let notional := applied.elim 0 fun _ ↦
    (eligible.map PositionEligibilityWindow.fundingNotionalUsd).sum
  let statementPresent := evaluation.statementPresent
  if statementPresent ∧ (evaluation.exchangeAmountUsd = none ∨
      strip evaluation.exchangeEventId = "") then
    throw "exchange amount and stable exchange_event_id must be supplied together"
  let credited ← evaluation.exchangeAmountUsd.getD (.ok 0)
  let (reconciled, reasons) := verdict eligible (applied.map SettlementRateUpdate.rawRate)
    statementPresent expected credited tolerance
  return {
    symbol := symbol
    settlementTime := settlement
    eligibleCycleIds := eligible.map PositionEligibilityWindow.cycleId
    eligibleNotionalUsd := notional
    appliedRate := applied.map SettlementRateUpdate.rawRate
    rateAvailableAt := applied.map SettlementRateUpdate.availableAt
    expectedCashUsd := expected
    creditedCashUsd := credited
    exchangeEventId := strip evaluation.exchangeEventId
    reconciled := reconciled
    reasonCodes := (inputReasons eligible updates ++ reasons).eraseDups }

theorem verdict_of_rate {eligible : List PositionEligibilityWindow} (heligible : eligible ≠ [])
    {rate expected credited tolerance : ℚ} {statementPresent : Bool} :
    (verdict eligible (some rate) statementPresent expected credited tolerance).1 ↔
      statementPresent ∧ |credited - expected| ≤ tolerance := by
  rw [verdict, if_pos ⟨heligible, rfl⟩]
  cases statementPresent with
  | false => simp
  | true =>
    by_cases hmismatch : tolerance < |credited - expected|
    · simp [hmismatch]
    · simp [hmismatch, not_lt.mp hmismatch]

theorem verdict_of_missing {eligible : List PositionEligibilityWindow}
    {expected credited tolerance : ℚ} {statementPresent : Bool} :
    (verdict eligible none statementPresent expected credited tolerance).1 ↔
      ¬ (statementPresent ∧ tolerance < |credited|) := by
  have hmissing : ¬ (eligible ≠ [] ∧ (none : Option ℚ).isSome) := fun hboth ↦ nomatch hboth.2
  rw [verdict, if_neg hmissing]
  split_ifs with hunexpected
  · simpa using hunexpected
  · simpa using hunexpected

/-! ### Calls -/

inductive LifecycleCall where
  | addWindow (window : PositionEligibilityWindow)
  | observeRate (update : SettlementRateUpdate)

/-- A call that raises changes nothing. -/
def afterCall (comparisons : Comparisons) (lifecycle : FundingSettlementLifecycle) :
    LifecycleCall → FundingSettlementLifecycle
  | .addWindow window => (lifecycle.addWindow comparisons window).toOption.getD lifecycle
  | .observeRate update => (lifecycle.observeRate comparisons update).toOption.getD lifecycle

/-! ### What a verdict should mean -/

/-- The position was opened strictly before the settlement and not closed before it. -/
def PositionEligibilityWindow.IsOpen (window : PositionEligibilityWindow) (settlement : ℤ) : Prop :=
  window.openedAt < settlement ∧ ∀ closed ∈ window.closedAt, ¬ closed < settlement

/-- A cycle of the symbol that is evaluated and that is open at its settlement. -/
def OpenCycle (upper : String → String) (lifecycle : FundingSettlementLifecycle)
    (evaluation : Evaluation) (window : PositionEligibilityWindow) : Prop :=
  (∃ cycleId, (cycleId, window) ∈ lifecycle.windows) ∧
    upper window.symbol = upper (strip evaluation.symbol) ∧ window.IsOpen evaluation.settlementTime

/-- A rate for the settlement that is evaluated, available at or before it. -/
def KnownRate (upper : String → String) (lifecycle : FundingSettlementLifecycle)
    (evaluation : Evaluation) (update : SettlementRateUpdate) : Prop :=
  (∃ sourceEventId, (sourceEventId, update) ∈ lifecycle.rates) ∧
    upper update.symbol = upper (strip evaluation.symbol) ∧
    update.settlementTime = evaluation.settlementTime ∧
    update.availableAt ≤ evaluation.settlementTime

/-- The known rate that was available last, of several at one time the one with the last
identifier. -/
def LatestRate (upper : String → String) (lifecycle : FundingSettlementLifecycle)
    (evaluation : Evaluation) (update : SettlementRateUpdate) : Prop :=
  KnownRate upper lifecycle evaluation update ∧
    ∀ other, KnownRate upper lifecycle evaluation other → other.key ≤ update.key

/-- A statement with an identifier was supplied, and its amount is within the tolerance of what the
open cycles get at the latest rate. -/
def Justified (upper : String → String) (lifecycle : FundingSettlementLifecycle)
    (evaluation : Evaluation) : Prop :=
  ∃ amount tolerance update, evaluation.exchangeAmountUsd = some (.ok amount) ∧
    strip evaluation.exchangeEventId ≠ "" ∧ evaluation.cashToleranceUsd = .ok tolerance ∧
    LatestRate upper lifecycle evaluation update ∧
    |amount - expectedCash update.rawRate (lifecycle.openWindows upper
      (upper (strip evaluation.symbol)) evaluation.settlementTime)| ≤ tolerance

/-- If a cycle was open and the settlement is reported as reconciled, this is justified. -/
def Sound (upper : String → String) (lifecycle : FundingSettlementLifecycle)
    (evaluation : Evaluation) (result : SettlementLifecycleResult) : Prop :=
  (∃ window, OpenCycle upper lifecycle evaluation window) → result.reconciled →
    Justified upper lifecycle evaluation

/-! ### Windows and rates -/

section Lifecycle

variable {upper : String → String} {lifecycle : FundingSettlementLifecycle}
  {evaluation : Evaluation}

theorem eligibleAt_iff {window : PositionEligibilityWindow} {settlement : ℤ} :
    window.eligibleAt settlement ↔ window.IsOpen settlement := by
  simp only [PositionEligibilityWindow.eligibleAt, PositionEligibilityWindow.IsOpen,
    Bool.and_eq_true, decide_eq_true_eq, Option.all_eq_true, not_lt]
  rfl

theorem mem_openWindows {window : PositionEligibilityWindow} :
    window ∈ lifecycle.openWindows upper (upper (strip evaluation.symbol))
        evaluation.settlementTime ↔ OpenCycle upper lifecycle evaluation window := by
  simp [FundingSettlementLifecycle.openWindows, OpenCycle, eligibleAt_iff]

theorem mem_knownUpdates {update : SettlementRateUpdate} :
    update ∈ lifecycle.knownUpdates upper (upper (strip evaluation.symbol))
        evaluation.settlementTime ↔ KnownRate upper lifecycle evaluation update := by
  simp [FundingSettlementLifecycle.knownUpdates, KnownRate, and_assoc]

/-- The sum does not depend on the order of the windows. -/
theorem expectedCash_perm {rate : ℚ} {first second : List PositionEligibilityWindow}
    (hperm : first.Perm second) : expectedCash rate first = expectedCash rate second :=
  (hperm.map _).sum_eq

theorem expectedCash_eligibleWindows {rate : ℚ} {symbol : String} {settlement : ℤ} :
    expectedCash rate (lifecycle.eligibleWindows upper symbol settlement) =
      expectedCash rate (lifecycle.openWindows upper symbol settlement) :=
  expectedCash_perm (List.perm_insertionSort _ _)

/-- The last of the sorted rates is the latest one. -/
theorem latestRate_of_getLast {update : SettlementRateUpdate}
    (hlast : ((lifecycle.knownUpdates upper (upper (strip evaluation.symbol))
      evaluation.settlementTime).insertionSort fun first second ↦
        first.key ≤ second.key).getLast? = some update) :
    LatestRate upper lifecycle evaluation update := by
  have hsorted := List.pairwise_insertionSort
    (fun first second : SettlementRateUpdate ↦ first.key ≤ second.key)
    (lifecycle.knownUpdates upper (upper (strip evaluation.symbol)) evaluation.settlementTime)
  obtain ⟨earlier, hsplit⟩ := List.getLast?_eq_some_iff.mp hlast
  rw [hsplit, List.pairwise_append] at hsorted
  have hmem (other : SettlementRateUpdate) :
      other ∈ earlier ++ [update] ↔ KnownRate upper lifecycle evaluation other := by
    rw [← hsplit, List.mem_insertionSort, mem_knownUpdates]
  refine ⟨(hmem update).mp (by simp), fun other hother ↦ ?_⟩
  rcases List.mem_append.mp ((hmem other).mpr hother) with hearlier | hself
  · exact hsorted.2.2 other hearlier update List.mem_cons_self
  · rw [List.mem_singleton.mp hself]

theorem getLast_eq_none_iff :
    ((lifecycle.knownUpdates upper (upper (strip evaluation.symbol))
      evaluation.settlementTime).insertionSort fun first second ↦
        first.key ≤ second.key).getLast? = none ↔
      ¬ ∃ update, KnownRate upper lifecycle evaluation update := by
  rw [List.getLast?_eq_none_iff, List.eq_nil_iff_forall_not_mem, not_exists]
  refine forall_congr' fun update ↦ ?_
  rw [List.mem_insertionSort, mem_knownUpdates]

theorem eligibleWindows_eq_nil_iff :
    lifecycle.eligibleWindows upper (upper (strip evaluation.symbol))
        evaluation.settlementTime = [] ↔
      ¬ ∃ window, OpenCycle upper lifecycle evaluation window := by
  rw [FundingSettlementLifecycle.eligibleWindows, List.eq_nil_iff_forall_not_mem, not_exists]
  refine forall_congr' fun window ↦ ?_
  rw [List.mem_insertionSort, mem_openWindows]

/-- What an evaluation that returns has found. -/
theorem evaluate_eq_ok {result : SettlementLifecycleResult}
    (hevaluate : evaluate upper lifecycle evaluation = .ok result) :
    ∃ tolerance credited, evaluation.cashToleranceUsd = .ok tolerance ∧
      evaluation.exchangeAmountUsd.getD (.ok 0) = .ok credited ∧
      (evaluation.statementPresent →
        evaluation.exchangeAmountUsd ≠ none ∧ strip evaluation.exchangeEventId ≠ "") ∧
      let applied := ((lifecycle.knownUpdates upper (upper (strip evaluation.symbol))
        evaluation.settlementTime).insertionSort fun first second ↦
          first.key ≤ second.key).getLast?
      let eligible := lifecycle.eligibleWindows upper (upper (strip evaluation.symbol))
        evaluation.settlementTime
      result.reconciled = (verdict eligible (applied.map SettlementRateUpdate.rawRate)
        evaluation.statementPresent
        (applied.elim 0 fun update ↦ expectedCash update.rawRate eligible) credited
        tolerance).1 := by
  simp only [evaluate, throw_bind, check_eq_ok, bind_eq_ok, pure_eq_ok] at hevaluate
  obtain ⟨-, tolerance, htolerance, -, hstatement, credited, hcredited, rfl⟩ := hevaluate
  refine ⟨tolerance, credited, htolerance, hcredited, fun hpresent ↦ ?_, rfl⟩
  rw [not_and, not_or] at hstatement
  exact hstatement hpresent

/-- A statement refutes a settlement without a rate. -/
def Refuted (evaluation : Evaluation) : Prop :=
  ∃ amount tolerance, evaluation.exchangeAmountUsd = some (.ok amount) ∧
    evaluation.cashToleranceUsd = .ok tolerance ∧ tolerance < |amount|

end Lifecycle

/-- The verdict is sound exactly if a rate is known for the open cycles or a statement refutes
it. -/
theorem verdict_sound_iff (comparisons : Comparisons) (upper : String → String)
    (calls : List LifecycleCall) (evaluation : Evaluation) (result : SettlementLifecycleResult)
    (hevaluate : evaluate upper (run (afterCall comparisons) {} calls) evaluation = .ok result) :
    Sound upper (run (afterCall comparisons) {} calls) evaluation result ↔
      ((∃ window, OpenCycle upper (run (afterCall comparisons) {} calls) evaluation window) →
        (∃ update, KnownRate upper (run (afterCall comparisons) {} calls) evaluation update) ∨
          Refuted evaluation) := by
  generalize run (afterCall comparisons) {} calls = lifecycle at hevaluate ⊢
  obtain ⟨tolerance, credited, htolerance, hcredited, hstatement, hreconciled⟩ :=
    evaluate_eq_ok hevaluate
  refine imp_congr_right fun hopen ↦ ?_
  have heligible : lifecycle.eligibleWindows upper (upper (strip evaluation.symbol))
      evaluation.settlementTime ≠ [] := fun hnil ↦ eligibleWindows_eq_nil_iff.mp hnil hopen
  -- With an amount, the statement is there and the amount is what was credited.
  have hamount (hpresent : evaluation.statementPresent) :
      evaluation.exchangeAmountUsd = some (.ok credited) := by
    obtain ⟨amount, hamount⟩ := Option.ne_none_iff_exists'.mp (hstatement hpresent).1
    rw [hamount, Option.getD_some] at hcredited
    rw [hamount, hcredited]
  cases happlied : ((lifecycle.knownUpdates upper (upper (strip evaluation.symbol))
      evaluation.settlementTime).insertionSort fun first second ↦
        first.key ≤ second.key).getLast? with
  | none =>
    have hunknown := getLast_eq_none_iff.mp happlied
    simp only [happlied, Option.map_none] at hreconciled
    rw [hreconciled, verdict_of_missing, or_iff_right hunknown]
    constructor
    · intro hsound
      by_contra hrefuted
      have hverdict : ¬ (evaluation.statementPresent ∧ tolerance < |credited|) := fun hboth ↦
        hrefuted ⟨credited, tolerance, hamount hboth.1, htolerance, hboth.2⟩
      obtain ⟨-, -, update, -, -, -, hlatest, -⟩ := hsound hverdict
      exact hunknown ⟨update, hlatest.1⟩
    · rintro ⟨amount, bound, hgiven, hbound, hlarge⟩ hverdict
      rw [hgiven, Option.getD_some, Except.ok.injEq] at hcredited
      rw [hbound, Except.ok.injEq] at htolerance
      subst hcredited htolerance
      exact absurd ⟨by simp [Evaluation.statementPresent, hgiven], hlarge⟩ hverdict
  | some update =>
    have hlatest := latestRate_of_getLast happlied
    refine iff_of_true (fun hverdict ↦ ?_) (Or.inl ⟨update, hlatest.1⟩)
    simp only [happlied, Option.map_some, Option.elim_some] at hreconciled
    rw [hreconciled, verdict_of_rate heligible] at hverdict
    refine ⟨credited, tolerance, update, hamount hverdict.1, (hstatement hverdict.1).2, htolerance,
      hlatest, ?_⟩
    rw [← expectedCash_eligibleWindows]
    exact hverdict.2

/-! ### Samples -/

theorem sampleWindow_named : strip "cycle-1" ≠ "" ∧ strip "BTCUSDT" ≠ "" := by decide

theorem sampleRate_named : strip "BTCUSDT" ≠ "" ∧ strip "rate-1" ≠ "" := by decide

theorem sampleWindow_notional : (0 : ℚ) < 100 := by norm_num

def sampleWindow : PositionEligibilityWindow where
  cycleId := "cycle-1"
  symbol := "BTCUSDT"
  direction := .longSpotShortPerp
  fundingNotionalUsd := 100
  openedAt := 1
  named := sampleWindow_named
  notional_pos := sampleWindow_notional
  closed_later := by simp

def sampleRate : SettlementRateUpdate where
  symbol := "BTCUSDT"
  settlementTime := 8
  availableAt := 7
  rawRate := 1
  sourceEventId := "rate-1"
  named := sampleRate_named

/-- Every two windows and every two rates are the same. -/
def equalAll : Comparisons := ⟨fun _ _ ↦ true, fun _ _ ↦ true⟩

/-- The lifecycle with one open cycle and its rate. -/
def sampleCalls : List LifecycleCall := [.addWindow sampleWindow, .observeRate sampleRate]

def paidEvaluation : Evaluation where
  symbol := "BTCUSDT"
  settlementTime := 8
  exchangeAmountUsd := some (.ok 100)
  exchangeEventId := "income-1"
  cashToleranceUsd := .ok 0

theorem verdict_sound_iff_paid :
    ∃ result, evaluate id (run (afterCall equalAll) {} sampleCalls) paidEvaluation = .ok result ∧
      result.reconciled ∧
      Justified id (run (afterCall equalAll) {} sampleCalls) paidEvaluation := by
  have hknown : KnownRate id (run (afterCall equalAll) {} sampleCalls) paidEvaluation sampleRate :=
    ⟨⟨"rate-1", List.mem_cons_self⟩, rfl, rfl, by decide⟩
  have hopen : OpenCycle id (run (afterCall equalAll) {} sampleCalls) paidEvaluation
      sampleWindow := ⟨⟨"cycle-1", List.mem_cons_self⟩, rfl, by decide, by simp [sampleWindow]⟩
  obtain ⟨result, hresult⟩ : ∃ result,
      evaluate id (run (afterCall equalAll) {} sampleCalls) paidEvaluation = .ok result :=
    ⟨_, rfl⟩
  have hreconciled : result.reconciled := by
    have hverdict : (evaluate id (run (afterCall equalAll) {} sampleCalls) paidEvaluation).map
        SettlementLifecycleResult.reconciled = .ok true := by decide +kernel
    rw [hresult] at hverdict
    exact Except.ok.inj hverdict
  exact ⟨result, hresult, hreconciled,
    (verdict_sound_iff equalAll id sampleCalls paidEvaluation result hresult).mpr
      (fun _ ↦ Or.inl ⟨sampleRate, hknown⟩) ⟨sampleWindow, hopen⟩ hreconciled⟩

/-- Without a rate, an open position that was paid nothing is reported as reconciled. -/
theorem reconciled_without_rate :
    (evaluate id (run (afterCall equalAll) {} [.addWindow sampleWindow])
      { symbol := "BTCUSDT", settlementTime := 8, cashToleranceUsd := .ok 0 }).map
        (fun result ↦ (result.eligibleCycleIds, result.reconciled, result.reasonCodes)) =
      .ok (["cycle-1"], true, ["missing_point_in_time_rate"]) := by
  decide

end Bongus.Funding
