import Bongus.Depth.Tracker
import Mathlib.Data.List.Chain

/-!
# Books that can be executed

What `executableLegCapacity` says of the book it walks. The tracker stores the last envelope of a
market only, and an envelope without errors continues one without errors, back to a snapshot
(`timing_chain`); so a book of which anything can be executed was built by an unbroken run of
updates on one connection, and its levels are sound (`executable_book_unbroken`).

`executable_book_laws` gathers the laws of the walk for requests that are positive: what is executed
against what was requested and what is there, the average price, and how all of it grows with the
request. A request that is not positive is refused without a walk (`empty_request_refused`).
-/

set_option autoImplicit false
set_option relaxedAutoImplicit false

namespace Bongus.Depth

open Lib.Runs

/-! ### The book of a market -/

def marketBook (tracker : DepthTracker) (symbol : String) (market : BookMarket) : MarketBook :=
  ((tracker symbol).getD {}).book market

/-- The updates of a market among the calls. -/
def updatesOf (symbol : String) (market : BookMarket) (calls : List DepthCall) :
    List DepthUpdate :=
  (calls.filter fun call ↦ call.symbol = symbol ∧ call.market = some market).map DepthCall.update

def track (calls : List DepthCall) : DepthTracker := run onL2depth (fun _ ↦ none) calls

/-- The book of a market as its own updates build it. -/
def bookOf (market : BookMarket) (updates : List DepthUpdate) : MarketBook :=
  run (MarketBook.receive market) {} updates

theorem marketBook_onL2depth (tracker : DepthTracker) (call : DepthCall) (symbol : String)
    (market : BookMarket) :
    marketBook (onL2depth tracker call) symbol market =
      if call.symbol = symbol ∧ call.market = some market then
        (marketBook tracker symbol market).receive market call.update
      else marketBook tracker symbol market := by
  obtain ⟨called, target, update⟩ := call
  by_cases hsymbol : called = symbol
  · subst hsymbol
    cases target with
    | none => simp [marketBook, onL2depth]
    | some target =>
      cases target <;> cases market <;> simp [marketBook, onL2depth, SymbolDepth.book]
  · simp [marketBook, onL2depth, hsymbol, Function.update_of_ne (Ne.symm hsymbol)]

/-- The book of a market depends on its own updates only. -/
theorem marketBook_track (calls : List DepthCall) (symbol : String) (market : BookMarket) :
    marketBook (track calls) symbol market = bookOf market (updatesOf symbol market calls) := by
  induction calls using List.reverseRecOn with
  | nil => cases market <;> rfl
  | append_singleton before call ih =>
    rw [track, run_concat, marketBook_onL2depth]
    by_cases hcall : call.symbol = symbol ∧ call.market = some market
    · rw [if_pos hcall, bookOf, updatesOf, List.filter_append, List.map_append,
        List.filter_cons_of_pos (by simpa using hcall), List.filter_nil, List.map_cons,
        List.map_nil, run_concat]
      exact congrArg (MarketBook.receive market · call.update) ih
    · rw [if_neg hcall, updatesOf, List.filter_append,
        List.filter_cons_of_neg (by simpa using hcall), List.filter_nil, List.append_nil]
      exact ih

theorem bookOf_concat (market : BookMarket) (updates : List DepthUpdate) (update : DepthUpdate) :
    bookOf market (updates ++ [update]) = (bookOf market updates).receive market update :=
  run_concat _ _ _

/-! ### The chain of a market -/

/-- The last of the updates has no errors in its envelope. -/
def ErrorFree (market : BookMarket) (updates : List DepthUpdate) : Prop :=
  ∃ timing, (bookOf market updates).timing = some timing ∧ timing.errors = []

/-- An update on the same connection that continues the one before it. -/
def Follows (earlier later : DepthUpdate) : Prop :=
  later.connection = earlier.connection ∧
    ∃ prior, updateId earlier.finalUpdateId = some prior ∧ Continues prior later

/-- The updates end with a run without errors that starts with a snapshot. -/
def Unbroken (market : BookMarket) (updates : List DepthUpdate) : Prop :=
  ∃ before snapshot rest, updates = before ++ snapshot :: rest ∧
    snapshot.isSnapshot = some true ∧ (updateId snapshot.finalUpdateId).isSome ∧
    (snapshot :: rest).IsChain Follows ∧
    ∀ between update after, snapshot :: rest = between ++ update :: after →
      ErrorFree market (before ++ between ++ [update])

theorem timing_concat (market : BookMarket) (updates : List DepthUpdate) (update : DepthUpdate) :
    (bookOf market (updates ++ [update])).timing =
      some (buildMarketTiming (bookOf market updates).timing market update) := by
  rw [bookOf_concat]
  rfl

/-- The envelope that is stored is the one of the last update. -/
theorem exists_last_of_timing {market : BookMarket} {updates : List DepthUpdate}
    {timing : MarketDataTiming} (htiming : (bookOf market updates).timing = some timing) :
    ∃ before last, updates = before ++ [last] ∧ timing.connectionId = last.connection ∧
      timing.finalUpdateId = updateId last.finalUpdateId := by
  rcases List.eq_nil_or_concat updates with rfl | ⟨before, last, rfl⟩
  · cases htiming
  · rw [List.concat_eq_append, timing_concat] at htiming
    obtain rfl := Option.some.inj htiming
    exact ⟨before, last, List.concat_eq_append, rfl, rfl⟩

theorem unbroken_snapshot {market : BookMarket} {before : List DepthUpdate}
    {update : DepthUpdate} (hfree : ErrorFree market (before ++ [update]))
    (hsnapshot : update.isSnapshot = some true)
    (hfinal : (updateId update.finalUpdateId).isSome) :
    Unbroken market (before ++ [update]) := by
  refine ⟨before, update, [], rfl, hsnapshot, hfinal, List.IsChain.singleton update, ?_⟩
  intro between other after hsplit
  rcases List.cons_eq_append_iff.mp hsplit with ⟨rfl, hsame⟩ | ⟨rest, -, hrest⟩
  · obtain ⟨rfl, -⟩ := List.cons.inj hsame
    rw [List.append_nil]
    exact hfree
  · simp at hrest

theorem Unbroken.concat {market : BookMarket} {earlier : List DepthUpdate}
    {last update : DepthUpdate}
    (hunbroken : Unbroken market (earlier ++ [last])) (hfollows : Follows last update)
    (hfree : ErrorFree market (earlier ++ [last] ++ [update])) :
    Unbroken market (earlier ++ [last] ++ [update]) := by
  obtain ⟨before, snapshot, rest, hsplit, hsnapshot, hfinal, hchain, hclean⟩ := hunbroken
  refine ⟨before, snapshot, rest ++ [update], ?_, hsnapshot, hfinal, ?_, ?_⟩
  · rw [hsplit, List.append_assoc, List.cons_append]
  · rw [← List.cons_append]
    refine List.isChain_append.mpr ⟨hchain, List.IsChain.singleton update, ?_⟩
    intro final hlast next hnext
    obtain rfl : update = next := by simpa using hnext
    have hsame := congrArg List.getLast? hsplit
    rw [List.getLast?_append_of_ne_nil _ (by simp), List.getLast?_append_of_ne_nil _ (by simp),
      Option.mem_def.mp hlast] at hsame
    obtain rfl : last = final := by simpa using hsame
    exact hfollows
  · intro between other after hrest
    rw [← List.cons_append] at hrest
    rcases List.eq_nil_or_concat after with rfl | ⟨after, final, rfl⟩
    · obtain ⟨hrun, hother⟩ := List.append_inj' hrest rfl
      obtain rfl : update = other := by simpa using hother
      rw [← hrun, ← hsplit]
      exact hfree
    · rw [List.concat_eq_append, ← List.cons_append, ← List.append_assoc] at hrest
      obtain ⟨hrun, -⟩ := List.append_inj' hrest rfl
      exact hclean between other after hrun

/-- Updates that end without errors end with an unbroken run. -/
theorem timing_chain {market : BookMarket} {updates : List DepthUpdate}
    (hfree : ErrorFree market updates) : Unbroken market updates := by
  induction updates using List.reverseRecOn with
  | nil =>
    obtain ⟨timing, htiming, -⟩ := hfree
    cases htiming
  | append_singleton before update ih =>
    have hlast := hfree
    obtain ⟨timing, htiming, herrors⟩ := hlast
    rw [timing_concat, Option.some.injEq] at htiming
    rw [← htiming] at herrors
    obtain ⟨hfinal, hsnapshot | ⟨earlier, prior, hprevious, hclean, hconnection, hprior,
      hcontinues⟩⟩ := buildMarketTiming_cases herrors
    · exact unbroken_snapshot hfree hsnapshot hfinal
    · have hunbroken := ih ⟨earlier, hprevious, hclean⟩
      obtain ⟨first, last, rfl, hsame, hid⟩ := exists_last_of_timing hprevious
      refine hunbroken.concat ⟨?_, prior, ?_, hcontinues⟩ hfree
      · rw [← hconnection, hsame]
      · rw [← hid, hprior]

/-! ### Capacity -/

section Capacity

variable {symbol : String} {market : BookMarket} {side : OrderSide} {maxAgeSeconds wallClock : ℚ}

/-- A leg with anything to execute is a walk over a book without reasons against it. -/
theorem executableLegCapacity_cases {tracker : DepthTracker} {requested : ℚ}
    (hsome : (executableLegCapacity tracker symbol market side requested maxAgeSeconds
      wallClock).executableNotionalUsd ≠ 0) :
    ∃ depth, tracker symbol = some depth ∧
      bookReasons (depth.book market) side maxAgeSeconds wallClock = [] := by
  unfold executableLegCapacity at hsome
  cases hdepth : tracker symbol with
  | none =>
    rw [hdepth] at hsome
    exact absurd rfl hsome
  | some depth =>
    refine ⟨depth, rfl, ?_⟩
    rw [hdepth] at hsome
    dsimp only at hsome
    split_ifs at hsome with hreasons
    · exact absurd rfl hsome
    · exact (List.append_eq_nil_iff.mp (not_not.mp hreasons)).2

theorem of_bookReasons_eq_nil {book : MarketBook}
    (hreasons : bookReasons book side maxAgeSeconds wallClock = []) :
    book.errors = [] ∧ (∃ timing, book.timing = some timing ∧ timing.errors = []) ∧
      book.levels side ≠ [] := by
  simp only [bookReasons, List.append_eq_nil_iff, note_eq_nil] at hreasons
  obtain ⟨⟨⟨⟨⟨-, herrors⟩, htiming⟩, -⟩, -⟩, hlevels⟩ := hreasons
  refine ⟨herrors, ?_, hlevels⟩
  cases hfound : book.timing with
  | none => simp [hfound] at htiming
  | some timing => exact ⟨timing, rfl, by simpa [hfound] using htiming⟩

theorem validated_bookOf {updates : List DepthUpdate} {timing : MarketDataTiming}
    (htiming : (bookOf market updates).timing = some timing) :
    (bookOf market updates).Validated := by
  obtain ⟨before, last, rfl, -, -⟩ := exists_last_of_timing htiming
  rw [bookOf_concat]
  exact ⟨last.bids, last.asks, rfl⟩

theorem sound_levels {book : MarketBook} (hsound : book.Sound) (side : OrderSide) :
    Positive (book.levels side) ∧ Sorted side (book.levels side) := by
  cases side with
  | buy => exact ⟨hsound.asks_positive, hsound.asks_sorted⟩
  | sell => exact ⟨hsound.bids_positive, hsound.bids_sorted⟩

theorem going_start {requested : ℚ} {levels : List Level} (hrequested : 0 < requested)
    (hlevels : levels ≠ []) : Going requested levels { remaining := requested } :=
  ⟨zero_add requested, hrequested, fun hnil ↦ absurd hnil hlevels⟩

/-- A walk from the start has an average between the first price and the last. -/
theorem priced_start {requested price quantity : ℚ} {rest : List Level}
    (hpositive : Positive ((price, quantity) :: rest))
    (hsorted : Sorted side ((price, quantity) :: rest)) (hrequested : 0 < requested) :
    Priced side price [] (walk requested ((price, quantity) :: rest)
      { remaining := requested }) := by
  obtain ⟨hlevel, hrest⟩ := List.forall_mem_cons.mp hpositive
  rcases walk_cons hlevel (going_start hrequested (List.cons_ne_nil _ _)) with
    ⟨htake, -, hwalk⟩ | ⟨-, hnext, hwalk⟩
  · rw [hwalk]
    have hfirst := priced_first requested hlevel.1 htake hsorted
    exact ⟨hfirst.quote_pos, hfirst.base_pos, hfirst.best_le, hfirst.le_worst,
      hfirst.best_le_worst, by simp⟩
  · rw [hwalk]
    exact priced_walk hrest (List.pairwise_cons.mp hsorted).2 hnext
      (priced_first requested hlevel.1 (mul_pos hlevel.1 hlevel.2) hsorted)

/-- What a leg says of a request on a side with a best price. -/
structure WalkLaws (best requested : ℚ) (leg : ExecutableLegCapacity) : Prop where
  le_requested : leg.executableNotionalUsd ≤ requested
  le_available : leg.executableNotionalUsd ≤ leg.availableNotionalUsd
  shortfall_le : min requested leg.availableNotionalUsd - leg.executableNotionalUsd ≤
    tolerance requested
  between : min best leg.worstPrice ≤ leg.averagePrice ∧ leg.averagePrice ≤ max best leg.worstPrice
  average_eq : leg.averagePrice = leg.executableNotionalUsd / leg.baseQuantity
  fully_iff : leg.fullyExecutable = true ↔
    requested - leg.executableNotionalUsd ≤ tolerance requested

/-- One leg executes no more than another and with no more impact. -/
structure LegLe (small large : ExecutableLegCapacity) : Prop where
  executable_le : small.executableNotionalUsd ≤ large.executableNotionalUsd
  base_le : small.baseQuantity ≤ large.baseQuantity
  impact_le : small.impactBps ≤ large.impactBps

theorem between_of_priced {best : ℚ} {final : Walk} (hpriced : Priced side best [] final) :
    min best final.worstPrice ≤ final.executedQuote / final.executedBase ∧
      final.executedQuote / final.executedBase ≤ max best final.worstPrice := by
  have hbest := hpriced.best_le
  have hworst := hpriced.le_worst
  cases side with
  | buy =>
    simp only [OrderSide.sign, one_mul] at hbest hworst
    exact ⟨(min_le_left _ _).trans ((le_div_iff₀ hpriced.base_pos).mpr hbest),
      ((div_le_iff₀ hpriced.base_pos).mpr hworst).trans (le_max_right _ _)⟩
  | sell =>
    simp only [OrderSide.sign] at hbest hworst
    exact ⟨(min_le_right _ _).trans ((le_div_iff₀ hpriced.base_pos).mpr (by linarith)),
      ((div_le_iff₀ hpriced.base_pos).mpr (by linarith)).trans (le_max_left _ _)⟩

theorem walkLaws_walkLeg {price quantity requested : ℚ} {rest : List Level} {age : WithTop ℚ}
    (hpositive : Positive ((price, quantity) :: rest))
    (hsorted : Sorted side ((price, quantity) :: rest)) (hrequested : 0 < requested) :
    WalkLaws price requested
      (walkLeg symbol market side requested ((price, quantity) :: rest) age) := by
  have hgoing := going_start hrequested (List.cons_ne_nil (price, quantity) rest)
  have hpriced := priced_start hpositive hsorted hrequested
  have houtcome := walk_outcome hpositive hgoing
  simp only [zero_add] at houtcome
  have haverage : (walkLeg symbol market side requested ((price, quantity) :: rest)
      age).averagePrice = (walk requested ((price, quantity) :: rest)
        { remaining := requested }).executedQuote / (walk requested ((price, quantity) :: rest)
          { remaining := requested }).executedBase := if_neg (not_le.mpr hpriced.base_pos)
  have hbetween := between_of_priced hpriced
  have hmin := min_le_left requested (notional ((price, quantity) :: rest))
  have hright := min_le_right requested (notional ((price, quantity) :: rest))
  have htolerance := tolerance_pos requested
  rcases houtcome with ⟨hfilled, hshort, hrequest, havailable⟩ | ⟨hleft, hshort, hall⟩
  · refine ⟨hrequest, havailable, ?_, haverage ▸ hbetween, haverage, ?_⟩
    · simp only [walkLeg]
      linarith
    · simp only [walkLeg, hfilled, le_refl, decide_true, true_iff]
      exact hshort
  · refine ⟨?_, hall.le, ?_, haverage ▸ hbetween, haverage, ?_⟩
    · simp only [walkLeg]
      linarith
    · simp only [walkLeg, hall]
      linarith
    · simp only [walkLeg, decide_eq_true_eq]
      exact ⟨fun hnone ↦ absurd hnone (not_le.mpr hleft),
        fun hsmall ↦ absurd hsmall (not_le.mpr hshort)⟩

/-- The impact of a walk is how much worse than the best price its average is. -/
theorem impactBps_walkLeg {price quantity requested : ℚ} {rest : List Level} {age : WithTop ℚ}
    (hpositive : Positive ((price, quantity) :: rest))
    (hsorted : Sorted side ((price, quantity) :: rest)) (hrequested : 0 < requested) :
    (walkLeg symbol market side requested ((price, quantity) :: rest) age).impactBps =
      ((max 0 (side.sign * ((walk requested ((price, quantity) :: rest)
        { remaining := requested }).executedQuote / (walk requested ((price, quantity) :: rest)
          { remaining := requested }).executedBase / price - 1) * 10000) : ℚ) : WithTop ℚ) := by
  have hpriced := priced_start hpositive hsorted hrequested
  have hprice := (hpositive (price, quantity) List.mem_cons_self).1
  have haverage := div_pos hpriced.quote_pos hpriced.base_pos
  simp only [walkLeg, List.head?_cons, Option.map_some, Option.getD_some,
    if_neg (not_le.mpr hpriced.base_pos)]
  rw [if_neg (not_or.mpr ⟨not_le.mpr haverage, not_le.mpr hprice⟩)]
  cases side with
  | buy => simp only [OrderSide.sign, one_mul]
  | sell =>
    simp only [OrderSide.sign]
    rw [neg_one_mul, neg_sub]

theorem legLe_walkLeg {price quantity small large : ℚ} {rest : List Level} {age : WithTop ℚ}
    (hpositive : Positive ((price, quantity) :: rest))
    (hsorted : Sorted side ((price, quantity) :: rest)) (hsmall : 0 < small)
    (hle : small ≤ large) :
    LegLe (walkLeg symbol market side small ((price, quantity) :: rest) age)
      (walkLeg symbol market side large ((price, quantity) :: rest) age) := by
  have hlarge : 0 < large := hsmall.trans_le hle
  have hne : (price, quantity) :: rest ≠ [] := List.cons_ne_nil _ _
  have hwithin := walk_mono hpositive hsorted hle (going_start hsmall hne)
    (going_start hlarge hne) rfl rfl ⟨le_rfl, le_rfl, by simp⟩
  refine ⟨hwithin.quote_le, hwithin.base_le, ?_⟩
  have hfirst := priced_start hpositive hsorted hsmall
  have hsecond := priced_start hpositive hsorted hlarge
  have hprice := (hpositive (price, quantity) List.mem_cons_self).1
  rw [impactBps_walkLeg hpositive hsorted hsmall, impactBps_walkLeg hpositive hsorted hlarge,
    WithTop.coe_le_coe]
  refine max_le_max_left 0 (mul_le_mul_of_nonneg_right ?_ (by norm_num))
  have haverage := hwithin.average_le
  cases side with
  | buy =>
    simp only [OrderSide.sign, one_mul] at haverage ⊢
    have hworse := (div_le_div_iff₀ hfirst.base_pos hsecond.base_pos).mpr haverage
    exact sub_le_sub_right (div_le_div_of_nonneg_right hworse hprice.le) 1
  | sell =>
    simp only [OrderSide.sign, neg_one_mul, neg_le_neg_iff] at haverage ⊢
    have hworse := (div_le_div_iff₀ hsecond.base_pos hfirst.base_pos).mpr haverage
    exact sub_le_sub_right (div_le_div_of_nonneg_right hworse hprice.le) 1

theorem executableLegCapacity_eq_walkLeg {tracker : DepthTracker} {depth : SymbolDepth}
    {requested : ℚ} (hdepth : tracker symbol = some depth)
    (hreasons : bookReasons (depth.book market) side maxAgeSeconds wallClock = [])
    (hrequested : 0 < requested) :
    executableLegCapacity tracker symbol market side requested maxAgeSeconds wallClock =
      walkLeg symbol market side requested ((depth.book market).levels side)
        (marketTimingAgeSeconds (depth.book market).timing wallClock) := by
  have hvalid : note (requested ≤ 0) "invalid_requested_notional" = [] :=
    note_eq_nil.mpr (not_le.mpr hrequested)
  unfold executableLegCapacity
  rw [hdepth]
  dsimp only
  rw [hvalid, hreasons, if_neg (by simp)]

/-- On a side of a validated book that nothing speaks against, every positive request is walked
within its bounds, and a larger one executes no less and with no less impact. -/
theorem executable_book_laws {tracker : DepthTracker} {depth : SymbolDepth}
    (hdepth : tracker symbol = some depth) (hvalidated : (depth.book market).Validated)
    (hreasons : bookReasons (depth.book market) side maxAgeSeconds wallClock = []) :
    ∃ best, ((depth.book market).levels side).head?.map Prod.fst = some best ∧
      (∀ requested, 0 < requested → WalkLaws best requested
        (executableLegCapacity tracker symbol market side requested maxAgeSeconds wallClock)) ∧
      ∀ small large, 0 < small → small ≤ large → LegLe
        (executableLegCapacity tracker symbol market side small maxAgeSeconds wallClock)
        (executableLegCapacity tracker symbol market side large maxAgeSeconds wallClock) := by
  obtain ⟨herrors, -, hlevels⟩ := of_bookReasons_eq_nil hreasons
  obtain ⟨hpositive, hsorted⟩ := sound_levels (sound_of_errors_eq_nil hvalidated herrors) side
  obtain ⟨⟨price, quantity⟩, rest, hside⟩ := List.exists_cons_of_ne_nil hlevels
  rw [hside] at hpositive hsorted
  refine ⟨price, by rw [hside]; rfl, fun requested hrequested ↦ ?_,
    fun small large hsmall hle ↦ ?_⟩
  · rw [executableLegCapacity_eq_walkLeg hdepth hreasons hrequested, hside]
    exact walkLaws_walkLeg hpositive hsorted hrequested
  · rw [executableLegCapacity_eq_walkLeg hdepth hreasons hsmall,
      executableLegCapacity_eq_walkLeg hdepth hreasons (hsmall.trans_le hle), hside]
    exact legLe_walkLeg hpositive hsorted hsmall hle

end Capacity

/-! ### A book of two levels -/

/-- A snapshot of the spot book. -/
def sampleSnapshot : DepthUpdate where
  bids := [.numeric (some 99) (some 2), .numeric (some 98) (some 5)]
  asks := [.numeric (some 100) (some 1), .numeric (some 101) (some 4)]
  connectionId := some "c1"
  exchangeEventTimeMs := some 1000
  receiveTimeMs := some 1001
  processTimeMs := some 1002
  finalUpdateId := some 7
  isSnapshot := some true

def sampleCalls : List DepthCall := [⟨"BTCUSDT", some .spot, sampleSnapshot⟩]

def sampleDepth : SymbolDepth where
  spot := bookOf .spot [sampleSnapshot]

theorem sampleDepth_validated : (sampleDepth.book .spot).Validated :=
  ⟨sampleSnapshot.bids, sampleSnapshot.asks, rfl⟩

theorem executable_book_laws_sample :
    bookReasons (sampleDepth.book .spot) .buy 5 2 = [] ∧
      ∃ best, ((sampleDepth.book .spot).levels .buy).head?.map Prod.fst = some best ∧
        (∀ requested, 0 < requested → WalkLaws best requested
          (executableLegCapacity (fun _ ↦ some sampleDepth) "BTCUSDT" .spot .buy requested 5 2)) ∧
        ∀ small large, 0 < small → small ≤ large → LegLe
          (executableLegCapacity (fun _ ↦ some sampleDepth) "BTCUSDT" .spot .buy small 5 2)
          (executableLegCapacity (fun _ ↦ some sampleDepth) "BTCUSDT" .spot .buy large 5 2) := by
  have hreasons : bookReasons (sampleDepth.book .spot) .buy 5 2 = [] := by decide +kernel
  exact ⟨hreasons, executable_book_laws rfl sampleDepth_validated hreasons⟩

/-- A request of nothing is not walked: nothing of it is missing, and it is not fully executable. -/
theorem empty_request_refused :
    (sampleDepth.book .spot).Validated ∧
      bookReasons (sampleDepth.book .spot) .buy 5 2 = [] ∧
      0 - (executableLegCapacity (fun _ ↦ some sampleDepth) "BTCUSDT" .spot .buy 0 5
        2).executableNotionalUsd ≤ tolerance 0 ∧
      (executableLegCapacity (fun _ ↦ some sampleDepth) "BTCUSDT" .spot .buy 0 5
        2).fullyExecutable = false :=
  ⟨sampleDepth_validated, by decide +kernel, by decide +kernel, by decide +kernel⟩

end Bongus.Depth
