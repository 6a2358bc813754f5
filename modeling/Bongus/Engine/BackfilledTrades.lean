import Bongus.Engine.PrivateBackfill
import Mathlib.Algebra.Order.BigOperators.Group.List
import Mathlib.Data.Int.ConditionallyCompleteOrder
import Mathlib.Data.List.Perm.Basic
import Mathlib.Tactic.Linarith

/-!
# The cumulative quantities of backfilled trades

The trades of an exchange are a history, and an order query reports what was executed of an order at
its moment. The backfill fetches the trades up to its end, while the orders are queried later. A
trade of an order that happens in between is in the quantity of its row and not among the trades, so
it is taken for one from before the window, and every trade event of the order says too much
(`late_trade_counted`). `cumulative_true_iff` shows that the events are right just if no order that
has one was traded between the end of the backfill and its query (`Quiet`).
-/

set_option autoImplicit false
set_option relaxedAutoImplicit false

namespace Bongus.Engine.PrivateBackfill

open Lib.Dictionary Lib.Fallible PrivateCursor

/-! ### Totals -/

section Totals

/-- The quantity of the trades with a property. -/
def total (trades : List BackfillTrade) (chosen : BackfillTrade → Bool) : ℚ :=
  ((trades.filter chosen).map BackfillTrade.qty).sum

variable {trades others : List BackfillTrade} {chosen other : BackfillTrade → Bool}

theorem total_perm (hperm : trades.Perm others) : total trades chosen = total others chosen :=
  ((hperm.filter chosen).map BackfillTrade.qty).sum_eq

theorem total_congr (hsame : ∀ trade ∈ trades, chosen trade = other trade) :
    total trades chosen = total trades other := by
  rw [total, total, List.filter_congr hsame]

theorem total_filter :
    total (trades.filter other) chosen = total trades fun trade ↦ chosen trade && other trade := by
  rw [total, total, List.filter_filter]

/-- A total in two parts. -/
theorem total_split (trades : List BackfillTrade) (chosen other : BackfillTrade → Bool) :
    total trades chosen = total trades (fun trade ↦ chosen trade && other trade) +
      total trades (fun trade ↦ chosen trade && !other trade) := by
  induction trades with
  | nil => simp [total]
  | cons trade rest ih =>
    simp only [total, List.filter_cons] at ih ⊢
    cases chosen trade with
    | false => simpa using ih
    | true =>
      cases other trade with
      | true => simp [ih, add_assoc]
      | false => simp [ih, add_left_comm]

theorem total_append (first second : List BackfillTrade) :
    total (first ++ second) chosen = total first chosen + total second chosen := by
  rw [total, List.filter_append, List.map_append, List.sum_append]
  rfl

theorem total_nonneg (hpositive : ∀ trade ∈ trades, 0 < trade.qty) : 0 ≤ total trades chosen := by
  refine List.sum_nonneg fun qty hqty ↦ ?_
  obtain ⟨trade, hmem, rfl⟩ := List.mem_map.mp hqty
  exact (hpositive trade (List.mem_of_mem_filter hmem)).le

/-- Nothing was traded just if no trade has the property. -/
theorem total_eq_zero_iff (hpositive : ∀ trade ∈ trades, 0 < trade.qty) :
    total trades chosen = 0 ↔ ∀ trade ∈ trades, chosen trade = false := by
  induction trades with
  | nil => simp [total]
  | cons trade rest ih =>
    obtain ⟨hfirst, hrest⟩ := List.forall_mem_cons.mp hpositive
    have hothers : 0 ≤ total rest chosen := total_nonneg hrest
    rw [List.forall_mem_cons, ← ih hrest, ← List.singleton_append, total_append]
    cases hchosen : chosen trade with
    | true =>
      have hone : total [trade] chosen = trade.qty := by simp [total, hchosen]
      rw [hone]
      constructor
      · intro hzero
        linarith
      · rintro ⟨hfalse, -⟩
        cases hfalse
    | false =>
      have hnone : total [trade] chosen = 0 := by simp [total, hchosen]
      rw [hnone, zero_add]
      exact ⟨fun hzero ↦ ⟨rfl, hzero⟩, And.right⟩

end Totals

/-! ### The history of the exchange -/

/-- The trades of a history have a quantity, a price and a time, and each has its own identity. -/
structure ValidHistory (history : List BackfillTrade) : Prop where
  qty_pos : ∀ trade ∈ history, 0 < trade.qty
  price_pos : ∀ trade ∈ history, 0 < trade.price
  timed : ∀ trade ∈ history, trade.eventTimeMs.isSome
  distinct : (history.map fun trade ↦ (trade.orderId, trade.tradeId)).Nodup

/-- What was executed of an order at a moment. -/
def executedBy (history : List BackfillTrade) (orderId moment : ℤ) : ℚ :=
  total history fun trade ↦ trade.orderId = orderId ∧ trade.time ≤ moment

/-- The quantity of an order up to one of its trades, by time and then by trade. -/
def cumulativeThrough (history : List BackfillTrade) (trade : BackfillTrade) : ℚ :=
  total history fun earlier ↦ earlier.orderId = trade.orderId ∧ earlier.Sooner trade

def BackfillTrade.row (trade : BackfillTrade) : TradeRow where
  orderId := some trade.orderId
  id := some trade.tradeId
  price := some trade.price
  qty := some trade.qty
  quoteQty := trade.quoteQty
  commission := trade.commission
  commissionAsset := trade.commissionAsset
  realizedPnl := trade.realizedPnl
  maker := trade.maker
  buyer := trade.buyer
  time := trade.eventTimeMs

def within (windowStart windowEnd : ℤ) (trade : BackfillTrade) : Bool :=
  windowStart ≤ trade.time ∧ trade.time ≤ windowEnd

/-- The exchange answers each query, made at its moment, from what was traded so far. No query is
made before the end of the backfill. -/
structure Honest (history : List BackfillTrade) (moment : ℕ → ℤ) (endTimeMs : ℤ)
    (exchange : Exchange) : Prop where
  late : ∀ query, endTimeMs ≤ moment query
  orders : ∀ query first last, ∀ row ∈ exchange.orderHistory query first last,
    ∀ orderId, row.orderId = some orderId →
      row.executedQty = some (executedBy history orderId (moment query))
  trades : ∀ query first last, exchange.userTradeHistory query first last =
    (history.filter fun trade ↦ within first last trade ∧ trade.time ≤ moment query).map
      BackfillTrade.row
  order : ∀ query orderId, (exchange.orderById query orderId).orderId = some orderId ∧
    (exchange.orderById query orderId).executedQty =
      some (executedBy history orderId (moment query))

/-- The row of an order that counts: its last one. -/
def lastRow (rows : List (ℕ × OrderRow)) (orderId : ℤ) : Option (ℕ × OrderRow) :=
  rows.reverse.find? fun entry ↦ entry.2.orderId = some orderId

/-- The client id of an order is one that the bot gives. -/
def BotRow (row : OrderRow) : Prop :=
  botOrderPrefix.toList.isPrefixOf (row.clientOrderId.getD "").toList = true

/-- An order of the bot that was traded in the window was not traded between the end of the backfill
and the query of its row. -/
def Quiet (history : List BackfillTrade) (moment : ℕ → ℤ) (startTimeMs endTimeMs : ℤ)
    (rows : List (ℕ × OrderRow)) : Prop :=
  ∀ trade ∈ history, within startTimeMs endTimeMs trade = true →
    ∀ query row, lastRow rows trade.orderId = some (query, row) → BotRow row →
      ∀ other ∈ history, other.orderId = trade.orderId →
        ¬ (endTimeMs < other.time ∧ other.time ≤ moment query)

/-- A trade event has the quantity of its order up to its trade. -/
def CumulativeTrue (history : List BackfillTrade) (event : BackfillEvent) : Prop :=
  ∀ tradeId, event.tradeId = some tradeId → ∃ trade ∈ history, trade.orderId = event.orderId ∧
    trade.tradeId = tradeId ∧ event.cumulativeFilledQty = cumulativeThrough history trade

/-! ### Orders -/

theorem lastRow_concat (rows : List (ℕ × OrderRow)) (entry : ℕ × OrderRow) (orderId : ℤ) :
    lastRow (rows ++ [entry]) orderId =
      if entry.2.orderId = some orderId then some entry else lastRow rows orderId := by
  rw [lastRow, List.reverse_append, List.reverse_singleton, List.singleton_append, List.find?_cons]
  by_cases hentry : entry.2.orderId = some orderId
  · simp [hentry]
  · simp [hentry, lastRow]

theorem parseBackfillOrder_eq_ok {symbol : String} {row : OrderRow} {order : BackfillOrder}
    (hparse : parseBackfillOrder symbol row = .ok order) :
    row.orderId = some order.orderId ∧ order.executedQty = row.executedQty.getD 0 ∧
      order.clientOrderId = row.clientOrderId.getD "" := by
  simp only [parseBackfillOrder, throw_bind, check_eq_ok, bind_eq_ok, pure_eq_ok,
    orThrow_eq_ok] at hparse
  obtain ⟨orderId, hid, -, rfl⟩ := hparse
  exact ⟨hid, rfl, rfl⟩

/-- The order that is found is the one of the last row. -/
theorem lookup_indexOrders {symbol : String} {rows : List (ℕ × OrderRow)}
    {parsed : List BackfillOrder}
    (hparse : (rows.map Prod.snd).mapM (parseBackfillOrder symbol) = .ok parsed) (orderId : ℤ) :
    Option.Rel (fun entry order ↦ parseBackfillOrder symbol entry.2 = .ok order)
      (lastRow rows orderId) ((indexOrders parsed).lookup orderId) := by
  induction rows using List.reverseRecOn generalizing parsed with
  | nil =>
    cases hparse
    exact Option.Rel.none
  | append_singleton before entry ih =>
    rw [List.map_append, List.mapM_append] at hparse
    simp only [List.map_cons, List.map_nil, List.mapM_cons, List.mapM_nil, bind_eq_ok,
      pure_eq_ok] at hparse
    obtain ⟨earlier, hearlier, -, ⟨order, horder, -, rfl, rfl⟩, rfl⟩ := hparse
    obtain ⟨hid, -⟩ := parseBackfillOrder_eq_ok horder
    have hindex : indexOrders (earlier ++ [order]) =
        assign (indexOrders earlier) order.orderId order := by
      simp [indexOrders]
    rw [hindex, lookup_assign, lastRow_concat, hid]
    by_cases hsame : orderId = order.orderId
    · rw [if_pos hsame, if_pos (congrArg some hsame.symm)]
      exact Option.Rel.some horder
    · rw [if_neg hsame, if_neg fun h ↦ hsame (Option.some.inj h).symm]
      exact ih hearlier

/-! ### The trades that are fetched -/

theorem parseBackfillTrade_row {trade : BackfillTrade} (hprice : 0 < trade.price)
    (hqty : 0 < trade.qty) : parseBackfillTrade trade.row = .ok trade := by
  simp [parseBackfillTrade, BackfillTrade.row, orThrow, hprice, hqty, Option.filter, pure,
    Except.pure]

theorem mapM_parseBackfillTrade {trades : List BackfillTrade}
    (hprice : ∀ trade ∈ trades, 0 < trade.price) (hqty : ∀ trade ∈ trades, 0 < trade.qty) :
    (trades.map BackfillTrade.row).mapM parseBackfillTrade = .ok trades := by
  induction trades with
  | nil => rfl
  | cons trade rest ih =>
    obtain ⟨hfirstPrice, hrestPrice⟩ := List.forall_mem_cons.mp hprice
    obtain ⟨hfirstQty, hrestQty⟩ := List.forall_mem_cons.mp hqty
    rw [List.map_cons, List.mapM_cons, parseBackfillTrade_row hfirstPrice hfirstQty,
      ih hrestPrice hrestQty]
    rfl

theorem snd_le_of_mem_windows {windowStart endTimeMs : ℤ} :
    ∀ window ∈ windows windowStart endTimeMs, window.2 ≤ endTimeMs := by
  induction windowStart using windows.induct endTimeMs with
  | case1 windowStart hle windowEnd hlast =>
    rw [windows, if_pos hle]
    dsimp only
    rw [if_pos hlast]
    simp
  | case2 windowStart hle windowEnd hmore ih =>
    rw [windows, if_pos hle]
    dsimp only
    rw [if_neg hmore]
    exact List.forall_mem_cons.mpr ⟨min_le_right _ _, ih⟩
  | case3 windowStart hgt =>
    rw [windows, if_neg hgt]
    simp

/-- The windows have each trade of their stretch once. -/
theorem flatMap_windows_perm (history : List BackfillTrade) (windowStart endTimeMs : ℤ) :
    ((windows windowStart endTimeMs).flatMap fun window ↦
      history.filter (within window.1 window.2)).Perm
        (history.filter (within windowStart endTimeMs)) := by
  induction windowStart using windows.induct endTimeMs with
  | case1 windowStart hle windowEnd hlast =>
    rw [windows, if_pos hle]
    dsimp only
    rw [if_pos hlast, List.flatMap_singleton]
    change (history.filter (within windowStart windowEnd)).Perm _
    rw [hlast]
  | case2 windowStart hle windowEnd hmore ih =>
    rw [windows, if_pos hle]
    dsimp only
    rw [if_neg hmore, List.flatMap_cons]
    have hstart : windowStart ≤ windowEnd := by
      simp only [windowEnd, backfillWindowMs]
      omega
    have hend : windowEnd ≤ endTimeMs := min_le_right _ _
    have hfirst : history.filter (within windowStart windowEnd) =
        (history.filter (within windowStart endTimeMs)).filter (·.time ≤ windowEnd) := by
      rw [List.filter_filter]
      refine List.filter_congr fun trade _ ↦ ?_
      rw [Bool.eq_iff_iff]
      simp only [within, decide_eq_true_eq, Bool.and_eq_true]
      omega
    have hrest : history.filter (within (windowEnd + 1) endTimeMs) =
        (history.filter (within windowStart endTimeMs)).filter
          fun trade ↦ !decide (trade.time ≤ windowEnd) := by
      rw [List.filter_filter]
      refine List.filter_congr fun trade _ ↦ ?_
      rw [Bool.eq_iff_iff]
      simp only [within, decide_eq_true_eq, Bool.and_eq_true, Bool.not_eq_true',
        decide_eq_false_iff_not]
      omega
    refine (ih.append_left _).trans ?_
    rw [hrest, hfirst]
    exact List.filter_append_perm _ _
  | case3 windowStart hgt =>
    rw [windows, if_neg hgt]
    refine List.Perm.of_eq (List.filter_eq_nil_iff.mpr fun trade _ ↦ ?_).symm
    simp only [within, decide_eq_true_eq]
    omega

/-- A row with the quantity of its order at the moment of its query. -/
def Reports (history : List BackfillTrade) (moment : ℕ → ℤ) (entry : ℕ × OrderRow) : Prop :=
  ∀ orderId, entry.2.orderId = some orderId →
    entry.2.executedQty = some (executedBy history orderId (moment entry.1))

section Collected

variable {history : List BackfillTrade} {moment : ℕ → ℤ} {endTimeMs : ℤ} {exchange : Exchange}

theorem parseJsonRows_eq_ok {Row : Type} {rows result : List Row} {label : String}
    (hparse : parseJsonRows rows label = .ok result) : result = rows := by
  rw [parseJsonRows] at hparse
  split_ifs at hparse
  exact (Except.ok.inj hparse).symm

theorem collectWindows_eq_ok (hhonest : Honest history moment endTimeMs exchange)
    {chosen : List (ℤ × ℤ)} (hchosen : ∀ window ∈ chosen, window.2 ≤ endTimeMs) {query next : ℕ}
    {orders : List (ℕ × OrderRow)} {trades : List TradeRow}
    (hcollect : collectWindows exchange chosen query = .ok (orders, trades, next)) :
    (∀ entry ∈ orders, Reports history moment entry) ∧
      trades = (chosen.flatMap fun window ↦
        history.filter (within window.1 window.2)).map BackfillTrade.row := by
  induction chosen generalizing query orders trades next with
  | nil =>
    cases hcollect
    exact ⟨by simp, rfl⟩
  | cons window rest ih =>
    obtain ⟨windowStart, windowEnd⟩ := window
    obtain ⟨hend, hrest⟩ := List.forall_mem_cons.mp hchosen
    rw [collectWindows] at hcollect
    simp only [bind_eq_ok, pure_eq_ok] at hcollect
    obtain ⟨orderRows, horders, tradeRows, htrades, ⟨others, more, last⟩, hothers, heq⟩ := hcollect
    obtain ⟨hreports, hmore⟩ := ih hrest hothers
    obtain rfl := parseJsonRows_eq_ok horders
    obtain rfl := parseJsonRows_eq_ok htrades
    cases heq
    constructor
    · intro entry hentry
      rcases List.mem_append.mp hentry with hfirst | hlater
      · obtain ⟨row, hrow, rfl⟩ := List.mem_map.mp hfirst
        exact hhonest.orders query windowStart windowEnd row hrow
      · exact hreports entry hlater
    · -- The query comes after the window, so it sees all of it.
      have hseen : ∀ trade ∈ history,
          decide (within windowStart windowEnd trade = true ∧ trade.time ≤ moment (query + 1)) =
            within windowStart windowEnd trade := by
        intro trade _
        have hlate := hhonest.late (query + 1)
        rw [Bool.eq_iff_iff]
        simp only [within, decide_eq_true_eq]
        omega
      rw [hhonest.trades, List.filter_congr hseen, hmore, List.flatMap_cons, List.map_append]

theorem collectRows_eq_ok (hhonest : Honest history moment endTimeMs exchange)
    {kind : UserDataStreamKind} {symbol : String} {startTimeMs : ℤ}
    {orders : List (ℕ × OrderRow)} {trades : List TradeRow}
    (hcollect : collectRows exchange kind symbol startTimeMs endTimeMs = .ok (orders, trades)) :
    (∀ entry ∈ orders, Reports history moment entry) ∧
      ∃ received : List BackfillTrade, trades = received.map BackfillTrade.row ∧
        received.Perm (history.filter (within startTimeMs endTimeMs)) := by
  simp only [collectRows, throw_bind, check_eq_ok, bind_eq_ok, pure_eq_ok] at hcollect
  obtain ⟨⟨paged, fetched, query⟩, hwindows, -, heq⟩ := hcollect
  cases heq
  obtain ⟨hreports, htrades⟩ := collectWindows_eq_ok hhonest snd_le_of_mem_windows hwindows
  refine ⟨fun entry hentry ↦ ?_, _, htrades, flatMap_windows_perm _ _ _⟩
  rcases List.mem_append.mp hentry with hpaged | hfound
  · exact hreports entry hpaged
  · obtain ⟨⟨orderId, index⟩, -, rfl⟩ := List.mem_map.mp hfound
    intro other hother
    obtain ⟨hid, hexecuted⟩ := hhonest.order (query + index) orderId
    rw [hid] at hother
    rw [← Option.some.inj hother]
    exact hexecuted

end Collected

/-! ### The trades in order -/

def BackfillTrade.key (trade : BackfillTrade) : ℤ × ℤ := (trade.orderId, trade.tradeId)

instance : Std.Total BackfillTrade.Sooner where
  total first second := by
    unfold BackfillTrade.Sooner
    omega

instance : IsTrans BackfillTrade BackfillTrade.Sooner where
  trans first second third := by
    unfold BackfillTrade.Sooner
    omega

theorem key_eq_of_sooner {first second : BackfillTrade} (hbefore : first.Sooner second)
    (hafter : second.Sooner first) : first.key = second.key := by
  unfold BackfillTrade.Sooner at hbefore hafter
  have hid : first.orderId = second.orderId := by omega
  have htrade : first.tradeId = second.tradeId := by omega
  rw [BackfillTrade.key, BackfillTrade.key, hid, htrade]

/-- A trade comes strictly before another one. -/
def BackfillTrade.Precedes (first second : BackfillTrade) : Prop :=
  first.Sooner second ∧ ¬ second.Sooner first

theorem sorted_precedes {trades : List BackfillTrade}
    (hdistinct : (trades.map BackfillTrade.key).Nodup) :
    (trades.insertionSort BackfillTrade.Sooner).Pairwise BackfillTrade.Precedes := by
  have hsorted : (trades.insertionSort BackfillTrade.Sooner).Pairwise BackfillTrade.Sooner :=
    List.pairwise_insertionSort _ _
  have hkeys : ((trades.insertionSort BackfillTrade.Sooner).map BackfillTrade.key).Nodup :=
    ((List.perm_insertionSort _ _).map _).nodup_iff.mpr hdistinct
  refine (hsorted.and (List.pairwise_map.mp hkeys)).imp ?_
  rintro first second ⟨hbefore, hother⟩
  exact ⟨hbefore, fun hafter ↦ hother (key_eq_of_sooner hbefore hafter)⟩

/-- The trade is one of an order of the bot. -/
def botTrade (orders : Orders) (trade : BackfillTrade) : Bool :=
  (orders.lookup trade.orderId).any BackfillOrder.isBot

/-- Where no trade comes twice, just the trades of other orders are left out. -/
theorem selectTrades_eq_filter (orders : Orders) {trades : List BackfillTrade}
    {seen : List (ℤ × ℤ)} (hdistinct : (trades.map BackfillTrade.key).Nodup)
    (hnew : ∀ trade ∈ trades, trade.key ∉ seen) :
    selectTrades orders trades seen = trades.filter (botTrade orders) := by
  induction trades generalizing seen with
  | nil => rfl
  | cons trade rest ih =>
    obtain ⟨hother, hrest⟩ := List.nodup_cons.mp hdistinct
    obtain ⟨hfirst, hlater⟩ := List.forall_mem_cons.mp hnew
    rw [selectTrades, List.filter_cons]
    by_cases hbot : botTrade orders trade = true
    · have hseen : ∀ other ∈ rest, other.key ∉ trade.key :: seen := by
        intro other hmem hsame
        rcases List.mem_cons.mp hsame with hkey | hold
        · exact hother (hkey ▸ List.mem_map_of_mem hmem)
        · exact hlater other hmem hold
      rw [if_pos ⟨hbot, hfirst⟩, if_pos hbot]
      exact congrArg (trade :: ·) (ih hrest hseen)
    · rw [if_neg fun h ↦ hbot h.1, if_neg hbot, ih hrest hlater]

/-! ### Running quantities -/

/-- The event of a trade has the quantity of its order before the trades, and those up to it. -/
def Running (trades : List BackfillTrade) (before : ℤ → ℚ) (trade : BackfillTrade)
    (event : BackfillEvent) : Prop :=
  event.orderId = trade.orderId ∧ event.tradeId = some trade.tradeId ∧
    event.cumulativeFilledQty = before trade.orderId +
      total trades fun earlier ↦ earlier.orderId = trade.orderId ∧ earlier.Sooner trade

theorem sooner_self (trade : BackfillTrade) : trade.Sooner trade :=
  Or.inr ⟨rfl, Or.inr ⟨rfl, le_refl _⟩⟩

/-- What is up to a trade of an ordered list: the trades before it, and itself. -/
theorem total_through {done rest : List BackfillTrade} {trade : BackfillTrade}
    (hsorted : (done ++ trade :: rest).Pairwise BackfillTrade.Precedes) :
    (total (done ++ trade :: rest) fun earlier ↦
      earlier.orderId = trade.orderId ∧ earlier.Sooner trade) =
        total done (fun earlier ↦ earlier.orderId = trade.orderId) + trade.qty := by
  obtain ⟨-, hlast, hcross⟩ := List.pairwise_append.mp hsorted
  have hdone : (total done fun earlier ↦ earlier.orderId = trade.orderId ∧ earlier.Sooner trade) =
      total done fun earlier ↦ earlier.orderId = trade.orderId := by
    refine total_congr fun earlier hearlier ↦ ?_
    simp only [(hcross earlier hearlier trade List.mem_cons_self).1, and_true]
  have hrest : (total rest fun earlier ↦
      earlier.orderId = trade.orderId ∧ earlier.Sooner trade) = 0 := by
    have hnone : ∀ later ∈ rest,
        ¬ decide (later.orderId = trade.orderId ∧ later.Sooner trade) = true := by
      intro later hlater
      simp only [((List.pairwise_cons.mp hlast).1 later hlater).2, and_false, decide_false,
        Bool.false_eq_true, not_false_eq_true]
    rw [total, List.filter_eq_nil_iff.mpr hnone]
    rfl
  have hone : (total [trade] fun earlier ↦
      earlier.orderId = trade.orderId ∧ earlier.Sooner trade) = trade.qty := by
    simp [total, sooner_self]
  rw [total_append, ← List.singleton_append, total_append, hdone, hone, hrest, add_zero]

theorem tradeEvents_running {kind : UserDataStreamKind} {orders : Orders} {before : ℤ → ℚ}
    {done rest : List BackfillTrade} {quantities quotes : List (ℤ × ℚ)}
    {events : List BackfillEvent}
    (hsorted : (done ++ rest).Pairwise BackfillTrade.Precedes)
    (hquantities : ∀ orderId, amount quantities orderId =
      before orderId + total done fun trade ↦ trade.orderId = orderId)
    (hevents : tradeEvents kind orders rest quantities quotes = .ok events) :
    List.Forall₂ (Running (done ++ rest) before) rest events := by
  induction rest generalizing done quantities quotes events with
  | nil =>
    cases hevents
    exact List.Forall₂.nil
  | cons trade rest ih =>
    simp only [tradeEvents, bind_eq_ok, orThrow_eq_ok, pure_eq_ok] at hevents
    obtain ⟨order, -, others, hothers, rfl⟩ := hevents
    have hlist : done ++ trade :: rest = (done ++ [trade]) ++ rest := by simp
    have hadded : ∀ orderId, amount (addTo quantities (trade.orderId, trade.qty)) orderId =
        before orderId + total (done ++ [trade]) fun earlier ↦ earlier.orderId = orderId := by
      intro orderId
      rw [addTo, amount_assign, total_append]
      by_cases hsame : orderId = trade.orderId
      · rw [if_pos hsame, hquantities, hsame]
        simp [total, add_assoc]
      · have hother : ¬ trade.orderId = orderId := fun h ↦ hsame h.symm
        rw [if_neg hsame, hquantities]
        simp [total, hother]
    refine List.Forall₂.cons ⟨rfl, rfl, ?_⟩ ?_
    · rw [total_through hsorted]
      change amount (addTo quantities (trade.orderId, trade.qty)) trade.orderId = _
      rw [hadded, total_append]
      simp [total]
    · rw [hlist] at hsorted ⊢
      exact ih hsorted hadded hothers

theorem lookup_baselines {orders : Orders} {fetched : List (ℤ × ℚ)} {baselines : List (ℤ × ℚ × ℚ)}
    (hbaselines : fetched.mapM (baseline orders) = .ok baselines) (orderId : ℤ) :
    (baselines.map fun entry ↦ (entry.1, entry.2.1)).lookup orderId =
      (fetched.lookup orderId).bind fun qty ↦
        (orders.lookup orderId).map fun order ↦ max (order.executedQty - qty) 0 := by
  induction fetched generalizing baselines with
  | nil =>
    cases hbaselines
    rfl
  | cons entry rest ih =>
    rw [List.mapM_cons] at hbaselines
    simp only [bind_eq_ok, pure_eq_ok] at hbaselines
    obtain ⟨first, hfirst, others, hothers, rfl⟩ := hbaselines
    simp only [baseline, throw_bind, check_eq_ok, bind_eq_ok, pure_eq_ok, orThrow_eq_ok] at hfirst
    obtain ⟨order, horder, -, rfl⟩ := hfirst
    rw [List.map_cons, lookup_cons_ite, lookup_cons_ite, ih hothers]
    by_cases hsame : orderId = entry.1
    · rw [if_pos hsame, if_pos hsame, Option.bind_some, hsame, horder]
      rfl
    · rw [if_neg hsame, if_neg hsame]

/-- The quantity that an order of the trades had before them. -/
theorem amount_baselines {orders : Orders} {trades : List BackfillTrade}
    {baselines : List (ℤ × ℚ × ℚ)} (hqty : ∀ trade ∈ trades, 0 < trade.qty)
    (hbaselines : (tally (trades.map fun trade ↦ (trade.orderId, trade.qty))).mapM
      (baseline orders) = .ok baselines)
    {trade : BackfillTrade} (htrade : trade ∈ trades) {order : BackfillOrder}
    (horder : orders.lookup trade.orderId = some order) :
    amount (baselines.map fun entry ↦ (entry.1, entry.2.1)) trade.orderId =
      max (order.executedQty - total trades fun other ↦ other.orderId = trade.orderId) 0 := by
  have hfetched : amount (tally (trades.map fun other ↦ (other.orderId, other.qty)))
      trade.orderId = total trades fun other ↦ other.orderId = trade.orderId := by
    rw [amount_tally, List.filter_map, List.map_map]
    rfl
  rw [amount, lookup_baselines hbaselines, horder]
  cases hlookup : (tally (trades.map fun other ↦ (other.orderId, other.qty))).lookup
      trade.orderId with
  | none =>
    -- The trade itself has a quantity, so its order is in the tally.
    rw [amount, hlookup] at hfetched
    have hnone := (total_eq_zero_iff hqty).mp hfetched.symm trade htrade
    simp at hnone
  | some qty =>
    rw [amount, hlookup, Option.getD_some] at hfetched
    rw [hfetched]
    rfl

/-! ### What was executed -/

/-- What was traded of an order between the end of the backfill and a query. -/
def executedLate (history : List BackfillTrade) (orderId endTimeMs moment : ℤ) : ℚ :=
  total history fun trade ↦ trade.orderId = orderId ∧ endTimeMs < trade.time ∧ trade.time ≤ moment

/-- What was executed of an order at a query: the trades of the window, and the others. -/
theorem executedBy_split (history : List BackfillTrade) (orderId startTimeMs : ℤ)
    {endTimeMs moment : ℤ} (hlate : endTimeMs ≤ moment) :
    executedBy history orderId moment =
      (total history fun trade ↦
        decide (trade.orderId = orderId) && within startTimeMs endTimeMs trade) +
      total history fun trade ↦ decide (trade.orderId = orderId ∧ trade.time ≤ moment) &&
        !within startTimeMs endTimeMs trade := by
  rw [executedBy, total_split history _ (within startTimeMs endTimeMs)]
  congr 1
  refine total_congr fun trade _ ↦ ?_
  rw [Bool.eq_iff_iff]
  simp only [within, decide_eq_true_eq, Bool.and_eq_true]
  omega

/-- What an order had before the window and the trades of the window up to one of them make what it
had at that trade, and what it got after the window. -/
theorem executedBy_window (history : List BackfillTrade) {trade : BackfillTrade}
    {startTimeMs endTimeMs moment : ℤ} (hwithin : within startTimeMs endTimeMs trade = true)
    (hlate : endTimeMs ≤ moment) :
    executedBy history trade.orderId moment -
        (total history fun other ↦
          decide (other.orderId = trade.orderId) && within startTimeMs endTimeMs other) +
        (total history fun other ↦
          decide (other.orderId = trade.orderId ∧ other.Sooner trade) &&
            within startTimeMs endTimeMs other) =
      cumulativeThrough history trade +
        executedLate history trade.orderId endTimeMs moment := by
  simp only [within, decide_eq_true_eq] at hwithin
  have hexecuted := executedBy_split history trade.orderId startTimeMs hlate
  have houtside := total_split history
    (fun other ↦ decide (other.orderId = trade.orderId ∧ other.time ≤ moment) &&
      !within startTimeMs endTimeMs other) (fun other ↦ other.time < startTimeMs)
  have hthrough := total_split history
    (fun other ↦ other.orderId = trade.orderId ∧ other.Sooner trade)
    (within startTimeMs endTimeMs)
  have hearly : (total history fun other ↦
      decide (other.orderId = trade.orderId ∧ other.Sooner trade) &&
        !within startTimeMs endTimeMs other) = total history fun other ↦
      (decide (other.orderId = trade.orderId ∧ other.time ≤ moment) &&
        !within startTimeMs endTimeMs other) && decide (other.time < startTimeMs) := by
    refine total_congr fun other _ ↦ ?_
    rw [Bool.eq_iff_iff]
    simp only [within, decide_eq_true_eq, Bool.and_eq_true, Bool.not_eq_true',
      decide_eq_false_iff_not]
    unfold BackfillTrade.Sooner
    omega
  have hafter : (total history fun other ↦
      (decide (other.orderId = trade.orderId ∧ other.time ≤ moment) &&
        !within startTimeMs endTimeMs other) && !decide (other.time < startTimeMs)) =
      executedLate history trade.orderId endTimeMs moment := by
    refine total_congr fun other _ ↦ ?_
    rw [Bool.eq_iff_iff]
    simp only [within, decide_eq_true_eq, Bool.and_eq_true, Bool.not_eq_true',
      decide_eq_false_iff_not]
    omega
  rw [cumulativeThrough]
  linarith

/-! ### The events -/

/-- The events of the trades, followed by those of the orders. -/
theorem buildBackfillEvents_eq_ok {kind : UserDataStreamKind} {symbol : String}
    {orderRows : List OrderRow} {received : List BackfillTrade} {backfill : Backfill}
    (hprice : ∀ trade ∈ received, 0 < trade.price) (hqty : ∀ trade ∈ received, 0 < trade.qty)
    (hdistinct : (received.map BackfillTrade.key).Nodup)
    (hbuild : buildBackfillEvents kind symbol orderRows (received.map BackfillTrade.row) =
      .ok backfill) :
    ∃ parsed, orderRows.mapM (parseBackfillOrder symbol) = .ok parsed ∧
      ∃ trades, trades.Perm (received.filter (botTrade (indexOrders parsed))) ∧
        ∃ before events others, backfill.events = events ++ others ∧
          (∀ event ∈ others, event.tradeId = none) ∧
          List.Forall₂ (Running trades before) trades events ∧
          ∀ trade ∈ trades, ∀ order, (indexOrders parsed).lookup trade.orderId = some order →
            before trade.orderId = max
              (order.executedQty - total trades fun other ↦ other.orderId = trade.orderId) 0 := by
  simp only [buildBackfillEvents, mapM_parseBackfillTrade hprice hqty, ok_bind, bind_eq_ok,
    pure_eq_ok] at hbuild
  obtain ⟨parsed, hparsed, baselines, hbaselines, events, hevents, rfl⟩ := hbuild
  rw [selectTrades_eq_filter _ hdistinct (by simp)] at hbaselines hevents
  have hperm := List.perm_insertionSort BackfillTrade.Sooner
    (received.filter (botTrade (indexOrders parsed)))
  have hkeys : ((received.filter (botTrade (indexOrders parsed))).map BackfillTrade.key).Nodup :=
    hdistinct.sublist (List.filter_sublist.map _)
  have hselected : ∀ trade ∈ (received.filter (botTrade (indexOrders parsed))).insertionSort
      BackfillTrade.Sooner, 0 < trade.qty := fun trade htrade ↦
    hqty trade (List.mem_of_mem_filter (hperm.mem_iff.mp htrade))
  refine ⟨parsed, hparsed, _, hperm,
    amount (baselines.map fun entry ↦ (entry.1, entry.2.1)), events, _, rfl, ?_, ?_, ?_⟩
  · intro event hevent
    obtain ⟨order, -, rfl⟩ := List.mem_map.mp hevent
    rfl
  · refine tradeEvents_running
      (show ([] ++ _).Pairwise BackfillTrade.Precedes from sorted_precedes hkeys)
      (fun orderId ↦ ?_) hevents
    simp [total]
  · intro trade htrade order horder
    exact amount_baselines hselected hbaselines htrade horder

/-- The event of a trade has the quantity of its order, and what was executed of it late. -/
def Counted (history : List BackfillTrade) (moment : ℕ → ℤ) (endTimeMs : ℤ) (query : ℕ)
    (trade : BackfillTrade) (event : BackfillEvent) : Prop :=
  event.orderId = trade.orderId ∧ event.tradeId = some trade.tradeId ∧
    event.cumulativeFilledQty = cumulativeThrough history trade +
      executedLate history trade.orderId endTimeMs (moment query)

section Backfilled

variable {history : List BackfillTrade} {moment : ℕ → ℤ} {endTimeMs : ℤ} {exchange : Exchange}

/-- The quantity of the order of a trade event, from the row of the order. -/
theorem cumulative_of_running (hvalid : ValidHistory history) {startTimeMs : ℤ}
    {trades : List BackfillTrade} (bot : ℤ → Bool)
    (hperm : trades.Perm (history.filter fun trade ↦
      bot trade.orderId && within startTimeMs endTimeMs trade))
    {before : ℤ → ℚ} {trade : BackfillTrade} (htrade : trade ∈ trades) {time : ℤ}
    (hlate : endTimeMs ≤ time)
    (hbefore : before trade.orderId = max (executedBy history trade.orderId time -
      total trades fun other ↦ other.orderId = trade.orderId) 0) :
    before trade.orderId + (total trades fun earlier ↦
        earlier.orderId = trade.orderId ∧ earlier.Sooner trade) =
      cumulativeThrough history trade +
        executedLate history trade.orderId endTimeMs time := by
  obtain ⟨-, hchosen⟩ := List.mem_filter.mp (hperm.mem_iff.mp htrade)
  obtain ⟨hbot, hwithin⟩ := (Bool.and_eq_true _ _).mp hchosen
  have hfetched : (total trades fun other ↦ other.orderId = trade.orderId) =
      total history fun other ↦
        decide (other.orderId = trade.orderId) && within startTimeMs endTimeMs other := by
    rw [total_perm hperm, total_filter]
    refine total_congr fun other _ ↦ ?_
    by_cases hsame : other.orderId = trade.orderId
    · simp [hsame, hbot]
    · simp [hsame]
  have hsooner : (total trades fun earlier ↦
      earlier.orderId = trade.orderId ∧ earlier.Sooner trade) =
      total history fun other ↦ decide (other.orderId = trade.orderId ∧ other.Sooner trade) &&
        within startTimeMs endTimeMs other := by
    rw [total_perm hperm, total_filter]
    refine total_congr fun other _ ↦ ?_
    by_cases hsame : other.orderId = trade.orderId
    · simp [hsame, hbot]
    · simp [hsame]
  -- The trades of the window were executed when the order was queried.
  have hroom : (total trades fun other ↦ other.orderId = trade.orderId) ≤
      executedBy history trade.orderId time := by
    have hrest : 0 ≤ total history fun other ↦
        decide (other.orderId = trade.orderId ∧ other.time ≤ time) &&
          !within startTimeMs endTimeMs other := total_nonneg hvalid.qty_pos
    rw [hfetched, executedBy_split history trade.orderId startTimeMs hlate]
    linarith
  rw [hbefore, max_eq_left (sub_nonneg.mpr hroom), hfetched, hsooner]
  exact executedBy_window history hwithin hlate

theorem lastRow_eq_some {rows : List (ℕ × OrderRow)} {orderId : ℤ} {entry : ℕ × OrderRow}
    (hlast : lastRow rows orderId = some entry) :
    entry ∈ rows ∧ entry.2.orderId = some orderId :=
  ⟨List.mem_reverse.mp (List.mem_of_find?_eq_some hlast), by
    simpa using List.find?_some hlast⟩

theorem botTrade_iff {symbol : String} {rows : List (ℕ × OrderRow)} {parsed : List BackfillOrder}
    (hparsed : (rows.map Prod.snd).mapM (parseBackfillOrder symbol) = .ok parsed)
    (trade : BackfillTrade) :
    botTrade (indexOrders parsed) trade = true ↔
      ∃ query row, lastRow rows trade.orderId = some (query, row) ∧ BotRow row := by
  have hrel := lookup_indexOrders hparsed trade.orderId
  rw [botTrade]
  generalize lastRow rows trade.orderId = last at hrel ⊢
  generalize (indexOrders parsed).lookup trade.orderId = found at hrel ⊢
  cases hrel with
  | none => simp
  | @some entry order horder =>
    obtain ⟨-, -, hclient⟩ := parseBackfillOrder_eq_ok horder
    obtain ⟨query, row⟩ := entry
    simp [BotRow, BackfillOrder.isBot, hclient]

/-- Every trade of the window that is one of the bot has an event, and there are no others. -/
theorem backfillSymbol_counted (hvalid : ValidHistory history)
    (hhonest : Honest history moment endTimeMs exchange) {kind : UserDataStreamKind}
    {symbol : String} {startTimeMs : ℤ} {rows : List (ℕ × OrderRow)} {backfill : Backfill}
    (hrun : backfillSymbol exchange kind symbol startTimeMs endTimeMs = .ok (rows, backfill)) :
    ∃ trades events others, backfill.events = events ++ others ∧
      (∀ event ∈ others, event.tradeId = none) ∧
      List.Forall₂ (fun trade event ↦ ∃ query row,
        lastRow rows trade.orderId = some (query, row) ∧ BotRow row ∧
          Counted history moment endTimeMs query trade event) trades events ∧
      ∀ trade, trade ∈ trades ↔ trade ∈ history ∧ within startTimeMs endTimeMs trade = true ∧
        ∃ query row, lastRow rows trade.orderId = some (query, row) ∧ BotRow row := by
  simp only [backfillSymbol, bind_eq_ok, pure_eq_ok] at hrun
  obtain ⟨⟨rows, tradeRows⟩, hcollect, built, hbuild, heq⟩ := hrun
  cases heq
  obtain ⟨hreports, received, rfl, hreceived⟩ := collectRows_eq_ok hhonest hcollect
  have hmem : ∀ trade ∈ received, trade ∈ history := fun trade htrade ↦
    List.mem_of_mem_filter (hreceived.mem_iff.mp htrade)
  have hdistinct : (received.map BackfillTrade.key).Nodup :=
    (hreceived.map _).nodup_iff.mpr (hvalid.distinct.sublist (List.filter_sublist.map _))
  obtain ⟨parsed, hparsed, trades, hperm, before, events, others, hevents, hothers, hrunning,
    hbefore⟩ := buildBackfillEvents_eq_ok (fun trade h ↦ hvalid.price_pos trade (hmem trade h))
      (fun trade h ↦ hvalid.qty_pos trade (hmem trade h)) hdistinct hbuild
  have hall : trades.Perm (history.filter fun trade ↦
      botTrade (indexOrders parsed) trade && within startTimeMs endTimeMs trade) := by
    refine hperm.trans ((hreceived.filter _).trans ?_)
    rw [List.filter_filter]
  have htrades : ∀ trade, trade ∈ trades ↔ trade ∈ history ∧
      within startTimeMs endTimeMs trade = true ∧
        ∃ query row, lastRow rows trade.orderId = some (query, row) ∧ BotRow row := by
    intro trade
    rw [hall.mem_iff, List.mem_filter, Bool.and_eq_true, botTrade_iff hparsed]
    exact and_congr_right fun _ ↦ and_comm
  refine ⟨trades, events, others, hevents, hothers, ?_, htrades⟩
  refine List.Forall₂.imp ?_ ((List.forall₂_and_left _ _).mpr ⟨fun _ h ↦ h, hrunning⟩)
  rintro trade event ⟨htrade, hid, htradeId, hcumulative⟩
  obtain ⟨-, -, query, row, hlast, hbot⟩ := (htrades trade).mp htrade
  obtain ⟨hrow, hrowId⟩ := lastRow_eq_some hlast
  refine ⟨query, row, hlast, hbot, hid, htradeId, hcumulative.trans ?_⟩
  have hrel := lookup_indexOrders hparsed trade.orderId
  rw [hlast] at hrel
  cases hlookup : (indexOrders parsed).lookup trade.orderId with
  | none =>
    rw [hlookup] at hrel
    cases hrel
  | some order =>
    rw [hlookup] at hrel
    obtain ⟨hparse⟩ := hrel
    have hexecuted : order.executedQty = executedBy history trade.orderId (moment query) := by
      rw [(parseBackfillOrder_eq_ok hparse).2.1, hreports _ hrow trade.orderId hrowId]
      rfl
    refine cumulative_of_running hvalid
      (fun orderId ↦ ((indexOrders parsed).lookup orderId).any BackfillOrder.isBot) hall htrade
      (hhonest.late query) ?_
    rw [← hexecuted]
    exact hbefore trade htrade order hlookup

theorem exists_of_forall₂ {α β : Type} {related : α → β → Prop} {first : List α} {second : List β}
    (hall : List.Forall₂ related first second) {x : α} (hx : x ∈ first) :
    ∃ y ∈ second, related x y := by
  induction hall with
  | nil => cases hx
  | cons hhead _ ih =>
    rcases List.mem_cons.mp hx with rfl | hrest
    · exact ⟨_, List.mem_cons_self, hhead⟩
    · obtain ⟨y, hy, hrelated⟩ := ih hrest
      exact ⟨y, List.mem_cons_of_mem _ hy, hrelated⟩

theorem eq_of_key_eq (hvalid : ValidHistory history) {first second : BackfillTrade}
    (hfirst : first ∈ history) (hsecond : second ∈ history) (hkey : first.key = second.key) :
    first = second :=
  List.inj_on_of_nodup_map hvalid.distinct hfirst hsecond hkey

/-- The event is right just if nothing was executed late. -/
theorem cumulativeTrue_iff (hvalid : ValidHistory history) {query : ℕ} {trade : BackfillTrade}
    (htrade : trade ∈ history) {event : BackfillEvent}
    (hcounted : Counted history moment endTimeMs query trade event) :
    CumulativeTrue history event ↔
      executedLate history trade.orderId endTimeMs (moment query) = 0 := by
  obtain ⟨hid, htradeId, hcumulative⟩ := hcounted
  constructor
  · intro htrue
    obtain ⟨found, hfound, hfoundId, hfoundTrade, hqty⟩ := htrue trade.tradeId htradeId
    have hsame : found = trade := eq_of_key_eq hvalid hfound htrade
      (Prod.ext (hfoundId.trans hid) hfoundTrade)
    rw [hsame, hcumulative] at hqty
    linarith
  · intro hzero tradeId hevent
    refine ⟨trade, htrade, hid.symm, Option.some.inj (htradeId.symm.trans hevent), ?_⟩
    rw [hcumulative, hzero, add_zero]

theorem executedLate_eq_zero_iff (hvalid : ValidHistory history) {orderId time : ℤ} :
    executedLate history orderId endTimeMs time = 0 ↔
      ∀ other ∈ history, other.orderId = orderId →
        ¬ (endTimeMs < other.time ∧ other.time ≤ time) := by
  rw [executedLate, total_eq_zero_iff hvalid.qty_pos]
  refine forall₂_congr fun other _ ↦ ?_
  rw [decide_eq_false_iff_not, not_and]

/-- The trade events of a backfill have the quantities of their orders just if no order that has
one was traded between the end of the backfill and the query of its row. -/
theorem cumulative_true_iff (hvalid : ValidHistory history)
    (hhonest : Honest history moment endTimeMs exchange) {kind : UserDataStreamKind}
    {symbol : String} {startTimeMs : ℤ} {rows : List (ℕ × OrderRow)} {backfill : Backfill}
    (hrun : backfillSymbol exchange kind symbol startTimeMs endTimeMs = .ok (rows, backfill)) :
    (∀ event ∈ backfill.events, CumulativeTrue history event) ↔
      Quiet history moment startTimeMs endTimeMs rows := by
  obtain ⟨trades, events, others, hevents, hothers, hcounted, htrades⟩ :=
    backfillSymbol_counted hvalid hhonest hrun
  rw [hevents]
  constructor
  · intro htrue trade htrade hwithin query row hlast hbot
    obtain ⟨event, hevent, found, _, hfound, -, hevent'⟩ := exists_of_forall₂ hcounted
      ((htrades trade).mpr ⟨htrade, hwithin, query, row, hlast, hbot⟩)
    obtain ⟨rfl, -⟩ := Prod.mk.inj (Option.some.inj (hlast.symm.trans hfound))
    have hzero := (cumulativeTrue_iff hvalid htrade hevent').mp
      (htrue event (List.mem_append_left _ hevent))
    exact (executedLate_eq_zero_iff hvalid).mp hzero
  · intro hquiet event hevent
    rcases List.mem_append.mp hevent with htraded | hother
    · obtain ⟨trade, hmem, query, row, hlast, hbot, hevent'⟩ :=
        exists_of_forall₂ hcounted.flip htraded
      obtain ⟨htrade, hwithin, -⟩ := (htrades trade).mp hmem
      refine (cumulativeTrue_iff hvalid htrade hevent').mpr ?_
      exact (executedLate_eq_zero_iff hvalid).mpr
        (hquiet trade htrade hwithin query row hlast hbot)
    · intro tradeId htradeId
      rw [hothers event hother] at htradeId
      cases htradeId

end Backfilled

/-! ### A late trade -/

def reported (history : List BackfillTrade) (time orderId : ℤ) : OrderRow where
  orderId := some orderId
  clientOrderId := some "bngs_entry"
  symbol := some "BTCUSDT"
  status := some "PARTIALLY_FILLED"
  side := some "BUY"
  executedQty := some (executedBy history orderId time)

/-- An exchange with a history. -/
def faithfulExchange (history : List BackfillTrade) (moment : ℕ → ℤ) : Exchange where
  orderHistory query first last :=
    ((history.filter (within first last)).map BackfillTrade.orderId).dedup.map
      (reported history (moment query))
  userTradeHistory query first last :=
    (history.filter fun trade ↦ within first last trade ∧ trade.time ≤ moment query).map
      BackfillTrade.row
  orderById query orderId := reported history (moment query) orderId
  visit := id
  visit_perm _ := List.Perm.refl _

theorem faithfulExchange_honest (history : List BackfillTrade) (moment : ℕ → ℤ) {endTimeMs : ℤ}
    (hlate : ∀ query, endTimeMs ≤ moment query) :
    Honest history moment endTimeMs (faithfulExchange history moment) where
  late := hlate
  orders query first last row hrow orderId hid := by
    obtain ⟨other, -, rfl⟩ := List.mem_map.mp hrow
    rw [Option.some.inj hid]
    rfl
  trades _ _ _ := rfl
  order _ _ := ⟨rfl, rfl⟩

def lateTrades : List BackfillTrade :=
  [{ orderId := 1, tradeId := 1, price := 1, qty := 1, eventTimeMs := some 5 },
    { orderId := 1, tradeId := 2, price := 1, qty := 2, eventTimeMs := some 15 }]

theorem lateTrades_valid : ValidHistory lateTrades where
  qty_pos := by decide +kernel
  price_pos := by decide +kernel
  timed := by decide +kernel
  distinct := by decide +kernel

theorem windows_singleton {windowStart endTimeMs : ℤ} (hle : windowStart ≤ endTimeMs)
    (hshort : endTimeMs < windowStart + backfillWindowMs) :
    windows windowStart endTimeMs = [(windowStart, endTimeMs)] := by
  have hend : min (windowStart + (backfillWindowMs - 1)) endTimeMs = endTimeMs :=
    min_eq_right (by omega)
  rw [windows, if_pos hle]
  dsimp only
  rw [hend, if_pos rfl]

/-- A second trade happens after the end of the backfill and before the query of the order: the
event of the first trade has the quantity of both. -/
theorem late_trade_counted :
    ValidHistory lateTrades ∧ Monotone (fun _ : ℕ ↦ (20 : ℤ)) ∧
      Honest lateTrades (fun _ ↦ 20) 10 (faithfulExchange lateTrades fun _ ↦ 20) ∧
      ∃ rows backfill,
        backfillSymbol (faithfulExchange lateTrades fun _ ↦ 20) .futures "BTCUSDT" 0 10 =
          .ok (rows, backfill) ∧
        ∃ event ∈ backfill.events, ¬ CumulativeTrue lateTrades event := by
  refine ⟨lateTrades_valid, monotone_const,
    faithfulExchange_honest lateTrades _ fun _ ↦ by decide, ?_⟩
  have hevaluated :
      ((backfillSymbol (faithfulExchange lateTrades fun _ ↦ 20) .futures "BTCUSDT" 0
        10).toOption.any fun result ↦ result.2.events.any fun event ↦
          event.tradeId = some 1 ∧ event.cumulativeFilledQty = 3) = true := by
    rw [backfillSymbol, collectRows, windows_singleton (by decide) (by decide)]
    decide +kernel
  obtain ⟨⟨rows, backfill⟩, hok, hany⟩ := (Option.any_eq_true _ _).mp hevaluated
  obtain ⟨event, hevent, hfound⟩ := List.any_eq_true.mp hany
  obtain ⟨htradeId, hcumulative⟩ := of_decide_eq_true hfound
  refine ⟨rows, backfill, toOption_eq_some.mp hok, event, hevent, fun htrue ↦ ?_⟩
  obtain ⟨trade, htrade, -, hid, hqty⟩ := htrue 1 htradeId
  have hthree : ∀ other ∈ lateTrades, other.tradeId = 1 →
      cumulativeThrough lateTrades other ≠ 3 := by decide +kernel
  exact hthree trade htrade hid (hqty.symm.trans hcumulative)

/-- A backfill that ends after the trades. -/
theorem cumulative_true_iff_lateTrades :
    ∃ rows backfill,
      backfillSymbol (faithfulExchange lateTrades fun _ ↦ 20) .futures "BTCUSDT" 0 15 =
        .ok (rows, backfill) ∧
      backfill.tradeCount = 2 ∧
      ((∀ event ∈ backfill.events, CumulativeTrue lateTrades event) ↔
        Quiet lateTrades (fun _ ↦ 20) 0 15 rows) := by
  have hevaluated :
      ((backfillSymbol (faithfulExchange lateTrades fun _ ↦ 20) .futures "BTCUSDT" 0
        15).toOption.any fun result ↦ result.2.tradeCount = 2) = true := by
    rw [backfillSymbol, collectRows, windows_singleton (by decide) (by decide)]
    decide +kernel
  obtain ⟨⟨rows, backfill⟩, hok, hcount⟩ := (Option.any_eq_true _ _).mp hevaluated
  exact ⟨rows, backfill, toOption_eq_some.mp hok, of_decide_eq_true hcount,
    cumulative_true_iff lateTrades_valid
      (faithfulExchange_honest lateTrades _ fun _ ↦ by decide) (toOption_eq_some.mp hok)⟩

end Bongus.Engine.PrivateBackfill
