import Bongus.Depth.Walk
import Bongus.Lib.Runs
import Bongus.Lib.Text
import Mathlib.Order.WithBot

/-!
# The tracker of the depth of a book

`DepthTracker` of `bongus/market_data/depth_tracker.py`, without legacy timing and for updates that
carry no time of their own reception: the levels of an update are validated on their own
(`validateLevels`), its envelope against the one of the update before it (`buildMarketTiming`), and
what can be executed is found by a walk over a book with no errors of either kind
(`executableLegCapacity`).

`errors_validateLevels` and `buildMarketTiming_cases` say what a book and an envelope without errors
are.
-/

set_option autoImplicit false
set_option relaxedAutoImplicit false

namespace Bongus.Depth

open Lib.Text Lib.Runs

inductive BookMarket where
  | spot
  | perp
deriving DecidableEq, Repr

/-- A text that is reported under a condition. -/
def note (condition : Prop) [Decidable condition] (text : String) : List String :=
  if condition then [text] else []

@[simp] theorem note_eq_nil {condition : Prop} [Decidable condition] {text : String} :
    note condition text = [] ↔ ¬ condition := by
  unfold note
  split_ifs with hcondition <;> simp [hcondition]

/-! ### Levels -/

/-- A level as it is received. A price or a quantity that is not finite is `none`. -/
inductive RawLevel where
  | malformed
  | nonNumeric
  | numeric (price quantity : Option ℚ)
deriving DecidableEq, Repr

def normalizeLevel (side : String) : RawLevel → Except String Level
  | .malformed => .error (side ++ "_malformed_level")
  | .nonNumeric => .error (side ++ "_non_numeric_level")
  | .numeric (some price) (some quantity) =>
    if price ≤ 0 ∨ quantity ≤ 0 then .error (side ++ "_zero_or_negative_level")
    else .ok (price, quantity)
  | .numeric _ _ => .error (side ++ "_non_finite_level")

def topN : ℕ := 20

def normalize (side : String) (raw : List RawLevel) : List Level × List String :=
  let results := (raw.take topN).map (normalizeLevel side)
  let values := results.filterMap Except.toOption
  let errors := results.filterMap fun
    | .error error => some error
    | .ok _ => none
  (values, errors ++ note (values = []) (side ++ "_empty"))

/-- Two neighbours in a list are in a relation. -/
def anyNeighbours (bad : Level → Level → Bool) (levels : List Level) : Bool :=
  (levels.zip levels.tail).any fun (first, second) ↦ bad first second

def crossed (bids asks : List Level) : Bool :=
  match bids, asks with
  | bid :: _, ask :: _ => ask.1 < bid.1
  | _, _ => false

def validateLevels (bids asks : List RawLevel) : List Level × List Level × List String :=
  let (cleanBids, bidErrors) := normalize "bid" bids
  let (cleanAsks, askErrors) := normalize "ask" asks
  (cleanBids, cleanAsks,
    (bidErrors ++ askErrors ++
      note (anyNeighbours (fun first second ↦ first.1 < second.1) cleanBids) "bids_unsorted" ++
      note (anyNeighbours (fun first second ↦ first.1 > second.1) cleanAsks) "asks_unsorted" ++
      note (crossed cleanBids cleanAsks) "crossed_book").eraseDups)

/-! ### Timing -/

/-- An update of a book. A number that is missing or that cannot be read is `none`. -/
structure DepthUpdate where
  bids : List RawLevel
  asks : List RawLevel
  connectionId : Option String := none
  exchangeEventTimeMs : Option ℚ := none
  receiveTimeMs : Option ℚ := none
  processTimeMs : Option ℚ := none
  persistTimeMs : Option ℚ := none
  firstUpdateId : Option ℤ := none
  lastUpdateId : Option ℤ := none
  finalUpdateId : Option ℤ := none
  previousFinalUpdateId : Option ℤ := none
  isSnapshot : Option Bool := none
  sequenceContiguous : Option Bool := none
deriving DecidableEq, Repr

structure MarketDataTiming where
  connectionId : String
  exchangeEventTimeMs : Option ℚ
  freshnessTimeMs : ℚ
  receiveTimeMs : ℚ
  processTimeMs : ℚ
  persistTimeMs : Option ℚ
  firstUpdateId : Option ℤ
  lastUpdateId : Option ℤ
  finalUpdateId : Option ℤ
  previousFinalUpdateId : Option ℤ
  isSnapshot : Bool
  sequenceContiguous : Bool
  errors : List String
deriving DecidableEq, Repr

def timestampMs (value : Option ℚ) : Option ℚ := value.filter (0 < ·)

def updateId (value : Option ℤ) : Option ℤ := value.filter (0 ≤ ·)

def DepthUpdate.connection (update : DepthUpdate) : String :=
  trim separatorBlank (update.connectionId.getD "")

/-- The times of an envelope contradict each other. -/
def nonCausal (exchange receive process persist : Option ℚ) : Bool :=
  match receive, process with
  | some receive, some process =>
    (match exchange with
      | some exchange => !(exchange ≤ receive && receive ≤ process)
      | none => process < receive) ||
    persist.any (· < process)
  | _, _ => false

/-- How an update does not continue the one before it on its connection. -/
def rangeErrors (prior final : ℤ) (first previousFinal : Option ℤ) : List String :=
  let expected := prior + 1
  note (final ≤ prior) "depth_sequence_regressed" ++
    note (previousFinal.any (· ≠ prior)) "previous_final_update_id_mismatch" ++
    note (first.any fun first ↦ !(first ≤ expected && expected ≤ final)) "depth_update_range_gap" ++
    note (previousFinal = none ∧ first = none) "missing_depth_update_range"

def sequenceErrors (previous : Option MarketDataTiming) (connection : String) (snapshot : Bool)
    (first final previousFinal : Option ℤ) : List String :=
  match previous, final with
  | some previous, some final =>
    if previous.errors = [] then
      if snapshot then []
      else if previous.connectionId ≠ connection then ["connection_changed_without_snapshot"]
      else match previous.finalUpdateId with
        | none => ["missing_sequence_baseline"]
        | some prior => rangeErrors prior final first previousFinal
    else note (snapshot = false) "missing_sequence_baseline"
  | _, _ => note (snapshot = false) "missing_sequence_baseline"

def buildMarketTiming (previous : Option MarketDataTiming) (market : BookMarket)
    (update : DepthUpdate) : MarketDataTiming :=
  let exchange := timestampMs update.exchangeEventTimeMs
  let receive := timestampMs update.receiveTimeMs
  let process := timestampMs update.processTimeMs
  let persist := timestampMs update.persistTimeMs
  let first := updateId update.firstUpdateId
  let final := updateId update.finalUpdateId
  let previousFinal := updateId update.previousFinalUpdateId
  let snapshot := update.isSnapshot = some true
  let contiguous := update.sequenceContiguous = some true
  let receiveTimeIsExchangeProxy := market = .spot ∧ snapshot ∧ exchange = none
  let errors :=
    note (update.connection = "") "missing_connection_id" ++
      note (exchange = none ∧ ¬ receiveTimeIsExchangeProxy) "missing_exchange_event_time" ++
      note (receive = none) "missing_receive_time" ++
      note (process = none) "missing_process_time" ++
      note (nonCausal exchange receive process persist) "non_causal_timing_envelope" ++
      note (final = none) "missing_final_update_id" ++
      note (¬ (snapshot ∨ contiguous)) "depth_sequence_not_contiguous" ++
      sequenceErrors previous update.connection snapshot first final previousFinal
  { connectionId := update.connection
    exchangeEventTimeMs := exchange
    freshnessTimeMs := (exchange.or receive).getD 0
    receiveTimeMs := receive.getD 0
    processTimeMs := process.getD 0
    persistTimeMs := persist
    firstUpdateId := first
    lastUpdateId := updateId update.lastUpdateId
    finalUpdateId := final
    previousFinalUpdateId := previousFinal
    isSnapshot := snapshot
    sequenceContiguous := contiguous
    errors := errors.eraseDups }

/-! ### Books -/

structure MarketBook where
  bids : List Level := []
  asks : List Level := []
  errors : List String := ["missing_book"]
  timing : Option MarketDataTiming := none
deriving DecidableEq, Repr

/-- An update replaces the book, also when it is not valid. -/
def MarketBook.receive (market : BookMarket) (book : MarketBook) (update : DepthUpdate) :
    MarketBook :=
  let (bids, asks, errors) := validateLevels update.bids update.asks
  { bids
    asks
    errors
    timing := some (buildMarketTiming book.timing market update) }

structure SymbolDepth where
  spot : MarketBook := {}
  perp : MarketBook := {}
deriving DecidableEq, Repr

def SymbolDepth.book (depth : SymbolDepth) : BookMarket → MarketBook
  | .spot => depth.spot
  | .perp => depth.perp

abbrev DepthTracker := String → Option SymbolDepth

/-- A call of `on_l2depth`. A market that is neither of the two is `none`. -/
structure DepthCall where
  symbol : String
  market : Option BookMarket
  update : DepthUpdate
deriving DecidableEq, Repr

def onL2depth (tracker : DepthTracker) (call : DepthCall) : DepthTracker :=
  let depth := (tracker call.symbol).getD {}
  let next := match call.market with
    | some .spot => { depth with spot := depth.spot.receive .spot call.update }
    | some .perp => { depth with perp := depth.perp.receive .perp call.update }
    | none => depth
  Function.update tracker call.symbol (some next)

/-! ### Capacity -/

structure ExecutableLegCapacity where
  symbol : String
  market : BookMarket
  side : OrderSide
  requestedNotionalUsd : ℚ
  availableNotionalUsd : ℚ
  executableNotionalUsd : ℚ
  baseQuantity : ℚ
  averagePrice : ℚ
  worstPrice : ℚ
  impactBps : WithTop ℚ
  bookAgeSeconds : WithTop ℚ
  fullyExecutable : Bool
  rejectionReasons : List String := []

def emptyLeg (symbol : String) (market : BookMarket) (side : OrderSide) (requested : ℚ)
    (reasons : List String) (age : WithTop ℚ) : ExecutableLegCapacity where
  symbol := symbol
  market := market
  side := side
  requestedNotionalUsd := requested
  availableNotionalUsd := 0
  executableNotionalUsd := 0
  baseQuantity := 0
  averagePrice := 0
  worstPrice := 0
  impactBps := ⊤
  bookAgeSeconds := age
  fullyExecutable := false
  rejectionReasons := reasons.eraseDups

def marketTimingAgeSeconds (timing : Option MarketDataTiming) (wallClock : ℚ) : Option ℚ :=
  match timing with
  | none => none
  | some timing =>
    if timing.errors ≠ [] then none
    else some ((wallClock * 1000 - timing.freshnessTimeMs) / 1000) |>.filter (0 ≤ ·)

def MarketBook.levels (book : MarketBook) : OrderSide → List Level
  | .buy => book.asks
  | .sell => book.bids

/-- Why a book is not walked, whatever is requested of it. -/
def bookReasons (book : MarketBook) (side : OrderSide) (maxAgeSeconds wallClock : ℚ) :
    List String :=
  let age := marketTimingAgeSeconds book.timing wallClock
  note (maxAgeSeconds ≤ 0) "invalid_book_ttl" ++ book.errors ++
    (match book.timing with
      | none => ["missing_timing_envelope"]
      | some timing => timing.errors) ++
    note (age.any (maxAgeSeconds < ·)) "stale_book" ++
    note (age = none ∧ book.timing.any (·.errors = [])) "exchange_event_clock_invalid" ++
    note (book.levels side = []) "empty_executable_side"

/-- The walk over a side of a book. -/
def walkLeg (symbol : String) (market : BookMarket) (side : OrderSide) (requested : ℚ)
    (levels : List Level) (age : WithTop ℚ) : ExecutableLegCapacity :=
  let final := walk requested levels { remaining := requested }
  let averagePrice :=
    if final.executedBase ≤ 0 then 0 else final.executedQuote / final.executedBase
  let bestPrice := (levels.head?.map Prod.fst).getD 0
  let impactBps : WithTop ℚ :=
    if averagePrice ≤ 0 ∨ bestPrice ≤ 0 then ⊤
    else match side with
      | .buy => ((max 0 ((averagePrice / bestPrice - 1) * 10000) : ℚ) : WithTop ℚ)
      | .sell => ((max 0 ((1 - averagePrice / bestPrice) * 10000) : ℚ) : WithTop ℚ)
  { symbol
    market
    side
    requestedNotionalUsd := requested
    availableNotionalUsd := notional levels
    executableNotionalUsd := final.executedQuote
    baseQuantity := final.executedBase
    averagePrice
    worstPrice := final.worstPrice
    impactBps
    bookAgeSeconds := age
    fullyExecutable := final.remaining ≤ 0
    rejectionReasons := note (¬ final.remaining ≤ 0) "insufficient_displayed_depth" }

def executableLegCapacity (tracker : DepthTracker) (symbol : String) (market : BookMarket)
    (side : OrderSide) (requested maxAgeSeconds wallClock : ℚ) : ExecutableLegCapacity :=
  let invalid := note (requested ≤ 0) "invalid_requested_notional"
  match tracker symbol with
  | none =>
    emptyLeg symbol market side requested
      (invalid ++ note (maxAgeSeconds ≤ 0) "invalid_book_ttl" ++ ["missing_book"]) ⊤
  | some depth =>
    let book := depth.book market
    let age : WithTop ℚ := marketTimingAgeSeconds book.timing wallClock
    let reasons := invalid ++ bookReasons book side maxAgeSeconds wallClock
    if reasons ≠ [] then emptyLeg symbol market side requested reasons age
    else walkLeg symbol market side requested (book.levels side) age

/-! ### What has no errors -/

theorem eraseDups_eq_nil {texts : List String} : texts.eraseDups = [] ↔ texts = [] := by
  cases texts with
  | nil => simp
  | cons text rest => simp [List.eraseDups_cons]

theorem positive_normalize (side : String) (raw : List RawLevel) :
    Positive (normalize side raw).1 := by
  intro level hmem
  simp only [normalize, List.mem_filterMap, List.mem_map] at hmem
  obtain ⟨_, ⟨received, -, rfl⟩, hlevel⟩ := hmem
  unfold normalizeLevel at hlevel
  split at hlevel
  · cases hlevel
  · cases hlevel
  · split_ifs at hlevel with hbad
    · cases hlevel
    · obtain rfl := Option.some.inj hlevel
      exact ⟨not_le.mp fun hprice ↦ hbad (Or.inl hprice),
        not_le.mp fun hquantity ↦ hbad (Or.inr hquantity)⟩
  · cases hlevel

/-- Levels without neighbours in the wrong order are sorted. -/
theorem sorted_of_anyNeighbours {side : OrderSide} {bad : Level → Level → Bool}
    {levels : List Level} (hnone : anyNeighbours bad levels = false)
    (hbad : ∀ first second, bad first second = false →
      side.sign * first.1 ≤ side.sign * second.1) : Sorted side levels := by
  have htrans : IsTrans Level fun first second ↦ side.sign * first.1 ≤ side.sign * second.1 :=
    ⟨fun _ _ _ ↦ le_trans⟩
  refine List.isChain_iff_pairwise.mp ?_
  induction levels with
  | nil => exact List.IsChain.nil
  | cons first rest ih =>
    cases rest with
    | nil => exact List.IsChain.singleton first
    | cons second rest =>
      obtain ⟨hfirst, hrest⟩ : bad first second = false ∧
          anyNeighbours bad (second :: rest) = false := by
        simpa [anyNeighbours] using hnone
      exact List.IsChain.cons_cons (hbad first second hfirst) (ih hrest)

theorem first_le_of_sorted {side : OrderSide} {best level : Level} {rest : List Level}
    (hsorted : Sorted side (best :: rest)) (hmem : level ∈ best :: rest) :
    side.sign * best.1 ≤ side.sign * level.1 := by
  rcases List.mem_cons.mp hmem with rfl | hrest
  · exact le_rfl
  · exact (List.pairwise_cons.mp hsorted).1 level hrest

/-- A book with positive levels, worst last on both sides, and no bid above an ask. -/
structure MarketBook.Sound (book : MarketBook) : Prop where
  bids_positive : Positive book.bids
  asks_positive : Positive book.asks
  bids_sorted : Sorted .sell book.bids
  asks_sorted : Sorted .buy book.asks
  uncrossed : ∀ bid ∈ book.bids, ∀ ask ∈ book.asks, bid.1 ≤ ask.1

/-- The levels of the book are those of an update. -/
def MarketBook.Validated (book : MarketBook) : Prop :=
  ∃ bids asks, validateLevels bids asks = (book.bids, book.asks, book.errors)

theorem sound_of_errors_eq_nil {book : MarketBook} (hvalidated : book.Validated)
    (herrors : book.errors = []) : book.Sound := by
  obtain ⟨bids, asks, hlevels⟩ := hvalidated
  rw [herrors] at hlevels
  simp only [validateLevels, Prod.mk.injEq, eraseDups_eq_nil, List.append_eq_nil_iff,
    note_eq_nil, Bool.not_eq_true] at hlevels
  obtain ⟨hbids, hasks, ⟨⟨-, hsells⟩, hbuys⟩, hcrossed⟩ := hlevels
  rw [hbids, hasks] at hcrossed
  rw [hbids] at hsells
  rw [hasks] at hbuys
  have hsell : Sorted .sell book.bids := sorted_of_anyNeighbours hsells fun first second hgood ↦ by
    simp only [OrderSide.sign, decide_eq_false_iff_not] at hgood ⊢
    linarith
  have hbuy : Sorted .buy book.asks := sorted_of_anyNeighbours hbuys fun first second hgood ↦ by
    simp only [OrderSide.sign, decide_eq_false_iff_not] at hgood ⊢
    linarith
  refine ⟨hbids ▸ positive_normalize "bid" bids, hasks ▸ positive_normalize "ask" asks, hsell,
    hbuy, fun bid hbid ask hask ↦ ?_⟩
  -- The best bid is the first one and the best ask too, and those were compared.
  cases hbidside : book.bids with
  | nil => simp [hbidside] at hbid
  | cons bestBid otherBids =>
    cases haskside : book.asks with
    | nil => simp [haskside] at hask
    | cons bestAsk otherAsks =>
      rw [hbidside] at hbid hsell
      rw [haskside] at hask hbuy
      have hbestBid := first_le_of_sorted hsell hbid
      have hbestAsk := first_le_of_sorted hbuy hask
      rw [hbidside, haskside] at hcrossed
      simp only [crossed, decide_eq_false_iff_not, not_lt] at hcrossed
      simp only [OrderSide.sign] at hbestBid hbestAsk
      linarith

/-- An update continues the book from a sequence: it comes after it, and it names it as the one
before or starts no later than behind it. -/
def Continues (prior : ℤ) (update : DepthUpdate) : Prop :=
  ∃ final, updateId update.finalUpdateId = some final ∧ prior < final ∧
    (updateId update.previousFinalUpdateId = some prior ∨
      ∃ first, updateId update.firstUpdateId = some first ∧ first ≤ prior + 1)

theorem continues_of_rangeErrors {prior final : ℤ} {update : DepthUpdate}
    (hfinal : updateId update.finalUpdateId = some final)
    (herrors : rangeErrors prior final (updateId update.firstUpdateId)
      (updateId update.previousFinalUpdateId) = []) : Continues prior update := by
  simp only [rangeErrors, List.append_eq_nil_iff, note_eq_nil, not_le, Bool.not_eq_true] at herrors
  obtain ⟨⟨⟨hlater, hprevious⟩, hfirst⟩, hnamed⟩ := herrors
  refine ⟨final, hfinal, hlater, ?_⟩
  cases hid : updateId update.previousFinalUpdateId with
  | some named =>
    left
    rw [hid] at hprevious
    simpa using hprevious
  | none =>
    right
    cases hrange : updateId update.firstUpdateId with
    | none => exact absurd ⟨hid, hrange⟩ hnamed
    | some first =>
      refine ⟨first, rfl, ?_⟩
      rw [hrange] at hfirst
      simp only [Option.any_some, Bool.not_eq_false', Bool.and_eq_true, decide_eq_true_eq] at hfirst
      exact hfirst.1

/-- An envelope without errors is that of a snapshot, or it continues one without errors on the same
connection. -/
theorem buildMarketTiming_cases {previous : Option MarketDataTiming} {market : BookMarket}
    {update : DepthUpdate} (herrors : (buildMarketTiming previous market update).errors = []) :
    (updateId update.finalUpdateId).isSome ∧
      (update.isSnapshot = some true ∨
        ∃ earlier prior, previous = some earlier ∧ earlier.errors = [] ∧
          earlier.connectionId = update.connection ∧ earlier.finalUpdateId = some prior ∧
          Continues prior update) := by
  simp only [buildMarketTiming, eraseDups_eq_nil, List.append_eq_nil_iff, note_eq_nil] at herrors
  obtain ⟨⟨⟨-, hfinal⟩, -⟩, hsequence⟩ := herrors
  obtain ⟨final, hfinal⟩ := Option.ne_none_iff_exists'.mp hfinal
  refine ⟨by simp [hfinal], ?_⟩
  by_cases hsnapshot : update.isSnapshot = some true
  · exact Or.inl hsnapshot
  right
  rw [hfinal] at hsequence
  cases previous with
  | none => simp [sequenceErrors, hsnapshot] at hsequence
  | some earlier =>
    simp only [sequenceErrors, hsnapshot, decide_false, Bool.false_eq_true, if_false] at hsequence
    split_ifs at hsequence with hclean hconnection
    · cases hprior : earlier.finalUpdateId with
      | none => simp [hprior] at hsequence
      | some prior =>
        rw [hprior] at hsequence
        exact ⟨earlier, prior, rfl, hclean, not_not.mp hconnection, hprior,
          continues_of_rangeErrors hfinal hsequence⟩
    · simp at hsequence

end Bongus.Depth
