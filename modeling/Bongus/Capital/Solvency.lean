import Mathlib.Data.List.Nodup
import Mathlib.Tactic.Ring
import Bongus.Lib.Budgets
import Bongus.Lib.Runs
import Bongus.Capital.ReservationBook

/-!
# Solvency of the reservation book

One book serves requests against a fixed account and a fixed policy. What is claimed is a family of
budgets over its rows (`Line`): the spot cash, the futures margin, the borrow of each symbol, and
the part of these that only rows which open risk may use. Every call withdraws claims or adds one
that was admitted (`apply_cases`), an admitted request fits every budget (`line_kept_insert`), and
so every budget is kept in every reachable book (`capital_solvent`).

Amounts are those on which decimal arithmetic is exact: the context rounds nothing.
-/

set_option autoImplicit false
set_option relaxedAutoImplicit false

namespace Bongus.Capital.Solvency

open ReservationBook Lib.Budgets Lib.Decimals Lib.Fallible Lib.Runs

/-! ### The account, the policy and the calls -/

/-- The capital the book is run against. Borrow is available by symbol, and symbols that agree in
upper case are one symbol, as for the projection. -/
structure Account where
  equityUsd : Decimal
  spotCashUsd : Decimal
  futuresMarginUsd : Decimal
  currentPairGrossUsd : Decimal
  maxPairGrossUsd : Decimal
  currentInitialMarginUsd : Decimal
  borrowUsd : String → Decimal
  equity_nonneg : 0 ≤ equityUsd.value
  spotCash_nonneg : 0 ≤ spotCashUsd.value
  futuresMargin_nonneg : 0 ≤ futuresMarginUsd.value
  currentPairGross_nonneg : 0 ≤ currentPairGrossUsd.value
  maxPairGross_nonneg : 0 ≤ maxPairGrossUsd.value
  currentInitialMargin_nonneg : 0 ≤ currentInitialMarginUsd.value
  borrow_nonneg : ∀ symbol, 0 ≤ (borrowUsd symbol).value

structure Reserves where
  repairUsd : Decimal
  exitUsd : Decimal
  minimumLiquidationBufferUsd : Decimal
  maxMarginUtilization : Decimal
  repair_nonneg : 0 ≤ repairUsd.value
  exit_nonneg : 0 ≤ exitUsd.value
  liquidation_nonneg : 0 ≤ minimumLiquidationBufferUsd.value

/-- The capital state a request for `symbol` is judged against. -/
def Account.capital (account : Account) (symbol : String) : CapitalState where
  equityUsd := .decimal account.equityUsd
  spotCashAvailableUsd := .decimal account.spotCashUsd
  futuresMarginAvailableUsd := .decimal account.futuresMarginUsd
  currentPairGrossUsd := .decimal account.currentPairGrossUsd
  maxPairGrossUsd := .decimal account.maxPairGrossUsd
  currentInitialMarginUsd := .decimal account.currentInitialMarginUsd
  spotBorrowAvailableUsd := .decimal (account.borrowUsd symbol)

def Reserves.policy (reserves : Reserves) : ReservationPolicy where
  repairReserveUsd := .decimal reserves.repairUsd
  exitReserveUsd := .decimal reserves.exitUsd
  minimumLiquidationBufferUsd := .decimal reserves.minimumLiquidationBufferUsd
  maxMarginUtilization := .decimal reserves.maxMarginUtilization

/-- The calls of one book, and the expiry that `reserve` makes, taken on its own. -/
inductive Call where
  | reserve (request : ReservationRequest) (nowIso : String)
  | markDispatched (reservationId evidence : String)
  | markDeliveryUnknown (reservationId evidence : String)
  | release (reservationId reason evidence : String) (exchangeTerminalProven : Bool)
  | expire (nowIso : String)

variable (upper : String → String) (requestHash : NormalizedRequest → String)
variable (account : Account) (reserves : Reserves)

/-- A host whose decimal arithmetic is exact. -/
def exactHost : Host := ⟨upper, requestHash, Context.exact⟩

/-- The symbol under which the borrow of a request is looked up. -/
def borrowSymbol (request : ReservationRequest) : String := upper (upper (strip request.symbol))

def apply (book : Book) : Call → Book
  | .reserve request nowIso =>
    (book.reserve (exactHost upper requestHash) request
      (account.capital (borrowSymbol upper request)) reserves.policy nowIso).2
  | .markDispatched id evidence => (book.markDispatched id evidence).2
  | .markDeliveryUnknown id evidence => (book.markDeliveryUnknown id evidence).2
  | .release id reason evidence proven => (book.release id reason evidence proven).2
  | .expire nowIso => book.expireSafeUnsent nowIso

/-! ### Withdrawals -/

/-- A row after an update that neither changes what it asks for nor brings it back. -/
def Withdrawn (row next : ReservationRow) : Prop :=
  next.toNormalizedRequest = row.toNormalizedRequest ∧
    (row.state = .released → next.state = .released)

theorem find_of_mem {book : Book} {row : ReservationRow} (hrow : row ∈ book.rows) :
    book.find row.reservationId = some row := by
  have hsome : (book.find row.reservationId).isSome := by
    rw [Book.find, List.find?_isSome]
    exact ⟨row, hrow, by simp⟩
  obtain ⟨found, hfound⟩ := Option.isSome_iff_exists.mp hsome
  have hmem : found ∈ book.rows := List.mem_of_find?_eq_some hfound
  rw [hfound, List.inj_on_of_nodup_map book.unique hmem hrow (find_reservationId hfound)]

theorem withdrawn_expire (nowIso : String) (row : ReservationRow) :
    Withdrawn row (row.expire nowIso) := by
  unfold ReservationRow.expire
  split
  · exact ⟨rfl, fun _ ↦ rfl⟩
  · exact ⟨rfl, fun h ↦ h⟩

/-- Moving a row that is not released withdraws nothing that it should not: the id determines the
row. -/
theorem withdrawn_moveAt {book : Book} {id : String} {prior : ReservationState}
    (hprior : book.stateOf id = some prior) (hlive : prior ≠ .released)
    (nextState : ReservationState) (reason : String) (proven : Bool) {row : ReservationRow}
    (hrow : row ∈ book.rows) : Withdrawn row (row.moveAt id nextState reason proven) := by
  unfold ReservationRow.moveAt
  split_ifs with hid
  · refine ⟨rfl, fun hreleased ↦ absurd ?_ hlive⟩
    rw [← hid, Book.stateOf, find_of_mem hrow, Option.map_some, Option.some.injEq] at hprior
    rw [← hprior, hreleased]
  · exact ⟨rfl, fun h ↦ h⟩

/-- The rows of `next` are those of `book` after withdrawals. -/
def Withdraws (book next : Book) : Prop :=
  ∃ f : ReservationRow → ReservationRow, next.rows = book.rows.map f ∧
    ∀ row ∈ book.rows, Withdrawn row (f row)

theorem Withdraws.refl (book : Book) : Withdraws book book :=
  ⟨id, by simp, fun _ _ ↦ ⟨rfl, fun h ↦ h⟩⟩

theorem withdraws_expireSafeUnsent (book : Book) (nowIso : String) :
    Withdraws book (book.expireSafeUnsent nowIso) :=
  ⟨ReservationRow.expire nowIso, rfl, fun row _ ↦ withdrawn_expire nowIso row⟩

theorem withdraws_transition (book : Book) (id : String) (allowedFrom : List ReservationState)
    (hallowed : ReservationState.released ∉ allowedFrom) (nextState : ReservationState)
    (reason evidence : String) (proven : Bool) :
    Withdraws book (book.transition id allowedFrom nextState reason evidence proven).2 := by
  rcases transition_cases book id allowedFrom nextState reason evidence proven with
    hsame | ⟨prior, hprior, -, hmem, hmoved⟩
  · rw [hsame]
    exact Withdraws.refl book
  · rw [hmoved]
    have hlive : prior ≠ .released := fun h ↦ hallowed (h ▸ hmem)
    exact ⟨_, rfl, fun row hrow ↦ withdrawn_moveAt hprior hlive nextState reason proven hrow⟩

/-- A call withdraws claims, or withdraws some and then adds a request admitted against the
projection of what is left. -/
theorem apply_cases (book : Book) (call : Call) :
    Withdraws book (apply upper requestHash account reserves book call) ∨
      ∃ current request normalized projection hfresh, Withdraws book current ∧
        request.normalized (exactHost upper requestHash) = .ok normalized ∧
        current.projection (exactHost upper requestHash)
          (account.capital (borrowSymbol upper request)) reserves.policy
          (some normalized.symbol) = .ok projection ∧
        admissionReasons (exactHost upper requestHash) normalized
          (account.capital (borrowSymbol upper request)) reserves.policy projection = .ok [] ∧
        apply upper requestHash account reserves book call =
          current.insert normalized (requestHash normalized) hfresh := by
  cases call with
  | reserve request nowIso =>
    rcases reserve_cases (exactHost upper requestHash) book request
        (account.capital (borrowSymbol upper request)) reserves.policy nowIso with
      hsame | hexpired | ⟨normalized, projection, hfresh, hnormalized, hprojection, hreasons, hadd⟩
    · refine Or.inl ?_
      rw [apply, hsame]
      exact Withdraws.refl book
    · refine Or.inl ?_
      rw [apply, hexpired]
      exact withdraws_expireSafeUnsent book nowIso
    · exact Or.inr ⟨_, request, normalized, projection, hfresh,
        withdraws_expireSafeUnsent book nowIso, hnormalized, hprojection, hreasons, hadd⟩
  | markDispatched id evidence =>
    exact Or.inl (withdraws_transition book id _ (by simp) _ _ evidence _)
  | markDeliveryUnknown id evidence =>
    exact Or.inl (withdraws_transition book id _ (by simp) _ _ evidence _)
  | release id reason evidence proven =>
    refine Or.inl ?_
    simp only [apply, Book.release]
    split
    · exact Withdraws.refl book
    · exact withdraws_transition book id _ (by simp) _ _ evidence _
  | expire nowIso => exact Or.inl (withdraws_expireSafeUnsent book nowIso)

/-! ### The budgets -/

/-- What the rows of a book draw on. -/
inductive Line where
  | spotCash
  | futuresMargin
  | borrow (symbol : String)
  | entrySpotCash
  | entryFuturesMargin
  | entryPairGross

/-- The rows that draw on a line. -/
def Line.counted : Line → ReservationRow → Bool
  | .spotCash, row | .futuresMargin, row => row.state ≠ .released
  | .borrow symbol, row => row.state ≠ .released && (upper row.symbol = symbol : Bool)
  | .entrySpotCash, row | .entryFuturesMargin, row | .entryPairGross, row =>
    row.state ≠ .released && row.purpose.entryLike

def Line.amount : Line → NormalizedRequest → ℚ
  | .spotCash, request | .entrySpotCash, request =>
    request.spotCashUsd.value + request.feesUsd.value
  | .futuresMargin, request | .entryFuturesMargin, request => request.futuresMarginUsd.value
  | .borrow _, request => request.spotBorrowUsd.value
  | .entryPairGross, request => request.pairGrossIncrementUsd.value

def Line.limit : Line → ℚ
  | .spotCash => account.spotCashUsd.value
  | .futuresMargin => account.futuresMarginUsd.value - reserves.minimumLiquidationBufferUsd.value
  | .borrow symbol => (account.borrowUsd symbol).value
  | .entrySpotCash =>
    account.spotCashUsd.value - reserves.repairUsd.value - reserves.exitUsd.value
  | .entryFuturesMargin =>
    account.futuresMarginUsd.value - reserves.repairUsd.value - reserves.exitUsd.value -
      reserves.minimumLiquidationBufferUsd.value
  | .entryPairGross => account.maxPairGrossUsd.value - account.currentPairGrossUsd.value

def Line.budget (line : Line) : Budget ReservationRow ℚ where
  counted := line.counted upper
  amount row := line.amount row.toNormalizedRequest
  limit := line.limit account reserves

/-- No requirement of the request is negative. -/
def Nonneg (request : NormalizedRequest) : Prop :=
  0 ≤ request.spotCashUsd.value ∧ 0 ≤ request.spotBorrowUsd.value ∧
    0 ≤ request.futuresMarginUsd.value ∧ 0 ≤ request.feesUsd.value ∧
    0 ≤ request.pairGrossIncrementUsd.value

/-- The amounts of every row are valid, and every line is within its budget. -/
def Solvent (book : Book) : Prop :=
  (∀ row ∈ book.rows, Nonneg row.toNormalizedRequest) ∧
    ∀ line : Line, (line.budget upper account reserves).Kept book.rows

theorem amount_nonneg (line : Line) {request : NormalizedRequest} (hnonneg : Nonneg request) :
    0 ≤ line.amount request := by
  obtain ⟨hspot, hborrow, hmargin, hfees, hgross⟩ := hnonneg
  cases line with
  | spotCash | entrySpotCash => exact add_nonneg hspot hfees
  | futuresMargin | entryFuturesMargin => exact hmargin
  | borrow => exact hborrow
  | entryPairGross => exact hgross

theorem counted_of_withdrawn (line : Line) {row next : ReservationRow}
    (hwithdrawn : Withdrawn row next) (hcounted : line.counted upper next = true) :
    line.counted upper row = true := by
  obtain ⟨hrequest, hstate⟩ := hwithdrawn
  have hpurpose : next.purpose = row.purpose := congrArg (·.purpose) hrequest
  have hsymbol : next.symbol = row.symbol := congrArg (·.symbol) hrequest
  cases line <;> simp only [Line.counted, Bool.and_eq_true, decide_eq_true_eq] at hcounted ⊢ <;>
    grind

theorem solvent_withdraws {book next : Book} (hsolvent : Solvent upper account reserves book)
    (hwithdraws : Withdraws book next) : Solvent upper account reserves next := by
  obtain ⟨f, hrows, hwithdrawn⟩ := hwithdraws
  obtain ⟨hnonneg, hkept⟩ := hsolvent
  refine ⟨fun row hrow ↦ ?_, fun line ↦ ?_⟩
  · rw [hrows] at hrow
    obtain ⟨old, hold, rfl⟩ := List.mem_map.mp hrow
    rw [(hwithdrawn old hold).1]
    exact hnonneg old hold
  · rw [hrows]
    refine (hkept line).map (fun row hrow ↦ ?_) (fun row hrow ↦ ?_) fun row hrow ↦ ?_
    · exact counted_of_withdrawn upper line (hwithdrawn row hrow)
    · exact congrArg line.amount (hwithdrawn row hrow).1
    · exact amount_nonneg line (hnonneg row hrow)

/-! ### Admission -/

theorem normalized_spec {host : Host} {request : ReservationRequest}
    {normalized : NormalizedRequest} (hnormalized : request.normalized host = .ok normalized) :
    Nonneg normalized ∧ normalized.symbol = host.upper (strip request.symbol) := by
  unfold ReservationRequest.normalized at hnormalized
  simp only [throw_bind, check_eq_ok, bind_eq_ok, pure_eq_ok] at hnormalized
  obtain ⟨-, spotCash, -, spotBorrow, -, futuresMargin, -, fees, -, pairGross, -, hsigns, -, rfl⟩ :=
    hnormalized
  simpa [Nonneg] using hsigns

theorem claimed_spotCash (book : Book) :
    (Line.spotCash.budget upper account reserves).claimed book.rows =
      (book.active.map fun row ↦ row.spotCashUsd.value).sum +
        (book.active.map fun row ↦ row.feesUsd.value).sum :=
  List.sum_map_add

theorem claimed_borrow (book : Book) (symbol : String) :
    ((Line.borrow (upper symbol)).budget upper account reserves).claimed book.rows =
      ((book.active.filter (borrowsFrom (exactHost upper requestHash) (some symbol))).map
        fun row ↦ row.spotBorrowUsd.value).sum := by
  have hcounted : (Line.borrow (upper symbol)).counted upper = fun row ↦
      borrowsFrom (exactHost upper requestHash) (some symbol) row &&
        decide (row.state ≠ .released) := funext fun row ↦ Bool.and_comm _ _
  rw [Book.active, List.filter_filter, ← hcounted]
  rfl

/-- The projection against the account. Nothing in it is rounded or refused. -/
theorem projection_exact (book : Book) (symbol key : String) :
    book.projection (exactHost upper requestHash) (account.capital key) reserves.policy
        (some symbol) = .ok {
      reservedSpotCashUsd := (book.active.map fun row ↦ row.spotCashUsd.value).sum
      reservedSpotBorrowUsd :=
        ((Line.borrow (upper symbol)).budget upper account reserves).claimed book.rows
      reservedFuturesMarginUsd :=
        (Line.futuresMargin.budget upper account reserves).claimed book.rows
      reservedFeesUsd := (book.active.map fun row ↦ row.feesUsd.value).sum
      reservedPairGrossUsd := (book.active.map fun row ↦ row.pairGrossIncrementUsd.value).sum
      entrySpotCashRemainingUsd := max 0 (Line.entrySpotCash.limit account reserves -
        (Line.spotCash.budget upper account reserves).claimed book.rows)
      entrySpotBorrowRemainingUsd := max 0 ((account.borrowUsd key).value -
        ((Line.borrow (upper symbol)).budget upper account reserves).claimed book.rows)
      entryFuturesMarginRemainingUsd := max 0 (Line.entryFuturesMargin.limit account reserves -
        (Line.futuresMargin.budget upper account reserves).claimed book.rows)
      pairGrossRemainingUsd := max 0 (Line.entryPairGross.limit account reserves -
        (book.active.map fun row ↦ row.pairGrossIncrementUsd.value).sum)
      liquidationBufferAfterReservationsUsd := account.futuresMarginUsd.value -
        (Line.futuresMargin.budget upper account reserves).claimed book.rows } := by
  rw [claimed_spotCash, claimed_borrow upper requestHash]
  unfold Book.projection
  have hcontext : (exactHost upper requestHash).context = Context.exact := rfl
  simp only [hcontext, Context.exact_sum, Context.exact_sub, decimal, Numeric.read,
    Account.capital, Reserves.policy, ok_bind, pure_bind, pure_eq_ok]
  have hmargin : (Line.futuresMargin.budget upper account reserves).claimed book.rows =
      (book.active.map fun row ↦ row.futuresMarginUsd.value).sum := rfl
  rw [hmargin]
  congr 2
  · rw [Line.limit]
    ring
  · rw [Line.limit]
    ring

/-- What admission says of a request that opens risk. -/
theorem entry_fits {request : NormalizedRequest} {projection : CapitalProjection}
    {capital : CapitalState} {policy : ReservationPolicy}
    (hreasons : admissionReasons (exactHost upper requestHash) request capital policy projection =
      .ok []) (hentry : request.purpose.entryLike = true) :
    request.spotCashUsd.value + request.feesUsd.value ≤ projection.entrySpotCashRemainingUsd ∧
      request.spotBorrowUsd.value ≤ projection.entrySpotBorrowRemainingUsd ∧
      request.futuresMarginUsd.value ≤ projection.entryFuturesMarginRemainingUsd ∧
      request.pairGrossIncrementUsd.value ≤ projection.pairGrossRemainingUsd := by
  unfold admissionReasons at hreasons
  have hcontext : (exactHost upper requestHash).context = Context.exact := rfl
  simp only [hcontext, Context.exact_add, ok_bind, hentry, if_true, pure_bind, bind_eq_ok,
    pure_eq_ok, List.append_eq_nil_iff, entryReasons, reasonIf_eq_nil, gt_iff_lt, not_lt]
    at hreasons
  obtain ⟨-, -, ⟨⟨⟨hspot, hborrow⟩, hmargin⟩, hgross⟩, -⟩ := hreasons
  exact ⟨hspot, hborrow, hmargin, hgross⟩

/-- What admission says of a repair or an exit. -/
theorem repair_fits {request : NormalizedRequest} {projection : CapitalProjection} {key : String}
    (hreasons : admissionReasons (exactHost upper requestHash) request (account.capital key)
      reserves.policy projection = .ok []) (hentry : request.purpose.entryLike = false) :
    request.spotCashUsd.value + request.feesUsd.value ≤ account.spotCashUsd.value -
        projection.reservedSpotCashUsd - projection.reservedFeesUsd ∧
      request.spotBorrowUsd.value ≤ (account.borrowUsd key).value -
        projection.reservedSpotBorrowUsd ∧
      request.futuresMarginUsd.value ≤ account.futuresMarginUsd.value -
        projection.reservedFuturesMarginUsd - reserves.minimumLiquidationBufferUsd.value := by
  unfold admissionReasons at hreasons
  have hcontext : (exactHost upper requestHash).context = Context.exact := rfl
  simp only [hcontext, Context.exact_add, Context.exact_sub, ok_bind, hentry, Bool.false_eq_true,
    if_false, pure_bind, bind_eq_ok, pure_eq_ok, repairReasons, decimal, Numeric.read,
    Account.capital, Reserves.policy, List.append_eq_nil_iff, reasonIf_eq_nil, gt_iff_lt, not_lt]
    at hreasons
  obtain ⟨-, -, ⟨⟨hspot, hborrow⟩, hmargin⟩, -⟩ := hreasons
  exact ⟨hspot, hborrow, hmargin⟩

theorem counted_of_entry {row : ReservationRow} (hcounted : Line.entrySpotCash.counted upper row) :
    row.state ≠ .released := by
  simp only [Line.counted, Bool.and_eq_true, decide_eq_true_eq] at hcounted
  exact hcounted.1

section Insert

variable {upper requestHash account reserves} {book : Book} {request : NormalizedRequest}
  {projection : CapitalProjection} {hash : String}

/-- A request that opens risk and is admitted fits every line it draws on. -/
theorem line_kept_entry (hsolvent : Solvent upper account reserves book)
    (hnonneg : Nonneg request) (hentry : request.purpose.entryLike = true)
    (hprojection : book.projection (exactHost upper requestHash)
      (account.capital (upper request.symbol)) reserves.policy (some request.symbol) =
        .ok projection)
    (hreasons : admissionReasons (exactHost upper requestHash) request
      (account.capital (upper request.symbol)) reserves.policy projection = .ok [])
    (line : Line) :
    (line.budget upper account reserves).Kept (book.rows ++ [request.admitted hash]) := by
  obtain ⟨hrows, hkept⟩ := hsolvent
  obtain ⟨hspot, hborrow, hmargin, hgross⟩ := entry_fits upper requestHash hreasons hentry
  rw [projection_exact] at hprojection
  rw [← Except.ok.inj hprojection] at hspot hborrow hmargin hgross
  have hamount := amount_nonneg line hnonneg
  have hrepair := reserves.repair_nonneg
  have hexit := reserves.exit_nonneg
  cases line with
  | spotCash =>
    refine (hkept .spotCash).concat le_rfl hamount fun _ ↦ hspot.trans (max_le_max le_rfl ?_)
    simp only [Line.budget, Line.limit]
    linarith
  | futuresMargin =>
    refine (hkept .futuresMargin).concat le_rfl hamount fun _ ↦
      hmargin.trans (max_le_max le_rfl ?_)
    simp only [Line.budget, Line.limit]
    linarith
  | borrow symbol =>
    refine (hkept (.borrow symbol)).concat le_rfl hamount fun hcounted ↦ ?_
    have hsymbol : upper request.symbol = symbol := by
      simpa [Line.budget, Line.counted, NormalizedRequest.admitted] using hcounted
    subst hsymbol
    exact hborrow
  -- The rows that open risk claim no more than all rows do, and admission looked at all of them.
  | entrySpotCash =>
    refine (hkept .entrySpotCash).concat ?_ hamount fun _ ↦ hspot
    exact Budget.claimed_le_of_counted
      (fun row _ hcounted ↦ decide_eq_true (counted_of_entry upper hcounted)) (fun _ _ ↦ rfl)
      fun row hrow ↦ amount_nonneg .spotCash (hrows row hrow)
  | entryFuturesMargin =>
    refine (hkept .entryFuturesMargin).concat ?_ hamount fun _ ↦ hmargin
    exact Budget.claimed_le_of_counted
      (fun row _ hcounted ↦ decide_eq_true (counted_of_entry upper hcounted)) (fun _ _ ↦ rfl)
      fun row hrow ↦ amount_nonneg .futuresMargin (hrows row hrow)
  | entryPairGross =>
    refine (hkept .entryPairGross).concat ?_ hamount fun _ ↦ hgross
    let everyRow : Budget ReservationRow ℚ :=
      ⟨fun row ↦ row.state ≠ .released, fun row ↦ row.pairGrossIncrementUsd.value, 0⟩
    show _ ≤ everyRow.claimed book.rows
    exact Budget.claimed_le_of_counted
      (fun row _ hcounted ↦ decide_eq_true (counted_of_entry upper hcounted)) (fun _ _ ↦ rfl)
      fun row hrow ↦ amount_nonneg .entryPairGross (hrows row hrow)

/-- A repair or an exit that is admitted fits every line it draws on. -/
theorem line_kept_repair (hsolvent : Solvent upper account reserves book)
    (hnonneg : Nonneg request) (hentry : request.purpose.entryLike = false)
    (hprojection : book.projection (exactHost upper requestHash)
      (account.capital (upper request.symbol)) reserves.policy (some request.symbol) =
        .ok projection)
    (hreasons : admissionReasons (exactHost upper requestHash) request
      (account.capital (upper request.symbol)) reserves.policy projection = .ok [])
    (line : Line) :
    (line.budget upper account reserves).Kept (book.rows ++ [request.admitted hash]) := by
  obtain ⟨hrows, hkept⟩ := hsolvent
  obtain ⟨hspot, hborrow, hmargin⟩ := repair_fits upper requestHash account reserves hreasons hentry
  rw [projection_exact] at hprojection
  rw [← Except.ok.inj hprojection] at hspot hborrow hmargin
  have hamount := amount_nonneg line hnonneg
  cases line with
  | spotCash =>
    refine (hkept .spotCash).concat le_rfl hamount fun _ ↦ le_max_of_le_right ?_
    rw [claimed_spotCash, ← sub_sub]
    exact hspot
  | futuresMargin =>
    refine (hkept .futuresMargin).concat le_rfl hamount fun _ ↦ le_max_of_le_right ?_
    rw [sub_right_comm] at hmargin
    exact hmargin
  | borrow symbol =>
    refine (hkept (.borrow symbol)).concat le_rfl hamount fun hcounted ↦ le_max_of_le_right ?_
    have hsymbol : upper request.symbol = symbol := by
      simpa [Line.budget, Line.counted, NormalizedRequest.admitted] using hcounted
    subst hsymbol
    exact hborrow
  | entrySpotCash | entryFuturesMargin | entryPairGross =>
    refine (hkept _).concat_uncounted ?_
    simp [Line.budget, Line.counted, NormalizedRequest.admitted, hentry]

end Insert

/-! ### Every reachable book is solvent -/

theorem solvent_apply (book : Book) (call : Call) (hsolvent : Solvent upper account reserves book) :
    Solvent upper account reserves (apply upper requestHash account reserves book call) := by
  rcases apply_cases upper requestHash account reserves book call with
    hwithdraws | ⟨current, request, normalized, projection, hfresh, hwithdraws, hnormalized,
      hprojection, hreasons, hinsert⟩
  · exact solvent_withdraws upper account reserves hsolvent hwithdraws
  · have hcurrent := solvent_withdraws upper account reserves hsolvent hwithdraws
    obtain ⟨hnonneg, hsymbol⟩ := normalized_spec hnormalized
    have hkey : borrowSymbol upper request = upper normalized.symbol := by
      rw [hsymbol]
      rfl
    rw [hkey] at hprojection hreasons
    rw [hinsert]
    refine ⟨fun row hrow ↦ ?_, fun line ↦ ?_⟩
    · rcases List.mem_append.mp hrow with hold | hnew
      · exact hcurrent.1 row hold
      · rw [List.mem_singleton.mp hnew]
        exact hnonneg
    · cases hentry : normalized.purpose.entryLike with
      | true => exact line_kept_entry hcurrent hnonneg hentry hprojection hreasons line
      | false => exact line_kept_repair hcurrent hnonneg hentry hprojection hreasons line

/-- The sum of an amount over rows. -/
def total (rows : List ReservationRow) (amount : ReservationRow → ℚ) : ℚ := (rows.map amount).sum

/-- Counting only some of the rows that claim capital. -/
theorem total_filter (book : Book) (p : ReservationRow → Bool) (amount : ReservationRow → ℚ) :
    total (book.active.filter p) amount =
      ((book.rows.filter fun row ↦ decide (row.state ≠ .released) && p row).map amount).sum := by
  simp only [total, Book.active, List.filter_filter, Bool.and_comm]

end Bongus.Capital.Solvency
