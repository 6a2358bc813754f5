import Bongus.Lib.Decimals
import Bongus.Lib.Fallible
import Bongus.Lib.Text

/-!
# The capital reservation book

`bongus/portfolio/capital_reservations.py`. A reservation is a row of one table. `reserve` expires
the stale rows that were never sent, projects the capital that is left, and admits the request or
refuses it. `transition` moves one row between its states, and `release` first reads the state of
the row outside any transaction (`releaseSelect`) and then moves it.

A transaction that raises is rolled back, so every operation returns its outcome together with the
book that is left. The clock columns of the two tables are not modelled: nothing here reads them.
-/

set_option autoImplicit false
set_option relaxedAutoImplicit false

namespace Bongus.Capital.ReservationBook

open Lib.Decimals Lib.Fallible Lib.Text

/-! ### Requests and rows -/

inductive ReservationPurpose where
  | entry
  | rotationEntry
  | hedgeRepair
  | exit
  | treasury
deriving DecidableEq, Repr

inductive ReservationState where
  | reserved
  | dispatched
  | unknown
  | released
deriving DecidableEq, Repr

/-- An order may have reached the exchange. -/
def ReservationState.InFlight (state : ReservationState) : Prop :=
  state = .dispatched ∨ state = .unknown

instance (state : ReservationState) : Decidable state.InFlight :=
  inferInstanceAs (Decidable (_ ∨ _))

structure CapitalState where
  equityUsd : Numeric
  spotCashAvailableUsd : Numeric
  futuresMarginAvailableUsd : Numeric
  currentPairGrossUsd : Numeric
  maxPairGrossUsd : Numeric
  currentInitialMarginUsd : Numeric := .decimal (.ofInt 0)
  spotBorrowAvailableUsd : Numeric := .decimal (.ofInt 0)

structure ReservationPolicy where
  repairReserveUsd : Numeric
  exitReserveUsd : Numeric
  minimumLiquidationBufferUsd : Numeric
  maxMarginUtilization : Numeric := .decimal ⟨false, 80, -2⟩

structure ReservationRequest where
  reservationId : String
  purpose : ReservationPurpose
  symbol : String
  cycleId : String
  spotCashUsd : Numeric
  futuresMarginUsd : Numeric
  feesUsd : Numeric
  pairGrossIncrementUsd : Numeric
  configVersion : String
  expiresAt : Option String := none
  metadata : Option String := none
  spotBorrowUsd : Numeric := .decimal (.ofInt 0)

/-- The payload a request is reduced to before it is hashed and stored. -/
structure NormalizedRequest where
  reservationId : String
  purpose : ReservationPurpose
  symbol : String
  cycleId : String
  spotCashUsd : Decimal
  spotBorrowUsd : Decimal
  futuresMarginUsd : Decimal
  feesUsd : Decimal
  pairGrossIncrementUsd : Decimal
  configVersion : String
  expiresAt : Option String
  metadata : String
deriving DecidableEq

structure ReservationRow extends NormalizedRequest where
  requestHash : String
  state : ReservationState
  exchangeTerminalProven : Bool
  releaseReason : String
deriving DecidableEq

/-- One line of the event table; the prior state of an admission is empty. -/
structure ReservationEvent where
  reservationId : String
  priorState : Option ReservationState
  nextState : ReservationState
  reason : String
  evidence : String
deriving DecidableEq

/-- The two tables. The reservation id is the primary key of the first. -/
structure Book where
  rows : List ReservationRow
  events : List ReservationEvent
  unique : (rows.map fun row ↦ row.reservationId).Nodup
deriving DecidableEq

def Book.empty : Book := ⟨[], [], List.nodup_nil⟩

/-- What the book takes from the language: the upper case of a text, the SHA-256 of the canonical
JSON of a request, and the context of decimal arithmetic. -/
structure Host where
  upper : String → String
  requestHash : NormalizedRequest → String
  context : Context

def strip : String → String := trim separatorBlank

def blank : String → Bool := isBlank separatorBlank

variable (host : Host)

def ReservationRequest.normalized (request : ReservationRequest) :
    Except String NormalizedRequest := do
  if blank request.reservationId || blank request.symbol || blank request.configVersion then
    throw "reservation_id, symbol and config_version are required"
  let spotCash ← request.spotCashUsd.read "spot_cash_usd"
  let spotBorrow ← request.spotBorrowUsd.read "spot_borrow_usd"
  let futuresMargin ← request.futuresMarginUsd.read "futures_margin_usd"
  let fees ← request.feesUsd.read "fees_usd"
  let pairGross ← request.pairGrossIncrementUsd.read "pair_gross_increment_usd"
  if spotCash.value < 0 ∨ spotBorrow.value < 0 ∨ futuresMargin.value < 0 ∨ fees.value < 0 ∨
      pairGross.value < 0 then
    throw "reservation requirements must be non-negative"
  if (request.purpose = .entry ∨ request.purpose = .rotationEntry) ∧
      (blank request.cycleId ∨ pairGross.value ≤ 0) then
    throw "entry reservations require cycle_id and positive pair gross"
  return {
    reservationId := strip request.reservationId
    purpose := request.purpose
    symbol := host.upper (strip request.symbol)
    cycleId := strip request.cycleId
    spotCashUsd := spotCash
    spotBorrowUsd := spotBorrow
    futuresMarginUsd := futuresMargin
    feesUsd := fees
    pairGrossIncrementUsd := pairGross
    configVersion := strip request.configVersion
    expiresAt := request.expiresAt
    metadata := request.metadata.getD "\x7b\x7d" }

/-! ### Projection and admission -/

structure CapitalProjection where
  reservedSpotCashUsd : ℚ
  reservedSpotBorrowUsd : ℚ
  reservedFuturesMarginUsd : ℚ
  reservedFeesUsd : ℚ
  reservedPairGrossUsd : ℚ
  entrySpotCashRemainingUsd : ℚ
  entrySpotBorrowRemainingUsd : ℚ
  entryFuturesMarginRemainingUsd : ℚ
  pairGrossRemainingUsd : ℚ
  liquidationBufferAfterReservationsUsd : ℚ
deriving DecidableEq

structure ReservationDecision where
  allowed : Bool
  duplicate : Bool
  reservationId : String
  reasons : List String
  projection : CapitalProjection
deriving DecidableEq

/-- The rows that still claim capital. -/
def Book.active (book : Book) : List ReservationRow :=
  book.rows.filter fun row ↦ row.state ≠ .released

/-- A row is counted against the borrow of `symbol`; without a symbol every row is. -/
def borrowsFrom (symbol : Option String) (row : ReservationRow) : Bool :=
  match symbol with
  | none => true
  | some name => host.upper row.symbol = host.upper name

/-- The value of a number that is read under its field name. -/
def decimal (value : Numeric) (name : String) : Except String ℚ := do
  return (← value.read name).value

def Book.projection (book : Book) (capital : CapitalState) (policy : ReservationPolicy)
    (borrowSymbol : Option String) : Except String CapitalProjection := do
  let context := host.context
  let rows := book.active
  let reservedSpot ← context.sum (rows.map fun row ↦ row.spotCashUsd.value)
  let reservedBorrow ← context.sum
    ((rows.filter (borrowsFrom host borrowSymbol)).map fun row ↦ row.spotBorrowUsd.value)
  let reservedMargin ← context.sum (rows.map fun row ↦ row.futuresMarginUsd.value)
  let reservedFees ← context.sum (rows.map fun row ↦ row.feesUsd.value)
  let reservedGross ← context.sum (rows.map fun row ↦ row.pairGrossIncrementUsd.value)
  let spotAvailable ← decimal capital.spotCashAvailableUsd "spot_cash_available_usd"
  let borrowAvailable ← decimal capital.spotBorrowAvailableUsd "spot_borrow_available_usd"
  let futuresAvailable ← decimal capital.futuresMarginAvailableUsd "futures_margin_available_usd"
  let repair ← decimal policy.repairReserveUsd "repair_reserve_usd"
  let exitReserve ← decimal policy.exitReserveUsd "exit_reserve_usd"
  let liquidation ← decimal policy.minimumLiquidationBufferUsd "minimum_liquidation_buffer_usd"
  let currentGross ← decimal capital.currentPairGrossUsd "current_pair_gross_usd"
  let grossCap ← decimal capital.maxPairGrossUsd "max_pair_gross_usd"
  let spotAfterRows ← context.sub spotAvailable reservedSpot
  let spotAfterFees ← context.sub spotAfterRows reservedFees
  let spotAfterRepair ← context.sub spotAfterFees repair
  let spotLeft ← context.sub spotAfterRepair exitReserve
  let borrowLeft ← context.sub borrowAvailable reservedBorrow
  let marginAfterRows ← context.sub futuresAvailable reservedMargin
  let marginAfterRepair ← context.sub marginAfterRows repair
  let marginAfterExit ← context.sub marginAfterRepair exitReserve
  let marginLeft ← context.sub marginAfterExit liquidation
  let grossAfterCurrent ← context.sub grossCap currentGross
  let grossLeft ← context.sub grossAfterCurrent reservedGross
  return {
    reservedSpotCashUsd := reservedSpot
    reservedSpotBorrowUsd := reservedBorrow
    reservedFuturesMarginUsd := reservedMargin
    reservedFeesUsd := reservedFees
    reservedPairGrossUsd := reservedGross
    entrySpotCashRemainingUsd := max 0 spotLeft
    entrySpotBorrowRemainingUsd := max 0 borrowLeft
    entryFuturesMarginRemainingUsd := max 0 marginLeft
    pairGrossRemainingUsd := max 0 grossLeft
    liquidationBufferAfterReservationsUsd := marginAfterRows }

/-- The purposes that open or fund risk. -/
def ReservationPurpose.entryLike (purpose : ReservationPurpose) : Bool :=
  purpose = .entry || purpose = .rotationEntry || purpose = .treasury

/-- A reason that is given when its condition holds. -/
def reasonIf (condition : Prop) [Decidable condition] (reason : String) : List String :=
  if condition then [reason] else []

@[simp] theorem reasonIf_eq_nil {condition : Prop} [Decidable condition] {reason : String} :
    reasonIf condition reason = [] ↔ ¬ condition := by
  unfold reasonIf
  split_ifs with h
  · simp [h]
  · simp [h]

/-- The reasons against a request that opens risk: what it needs beyond what is left. -/
def entryReasons (request : NormalizedRequest) (projection : CapitalProjection)
    (requiredSpot : ℚ) : List String :=
  reasonIf (requiredSpot > projection.entrySpotCashRemainingUsd)
      "spot_cash_after_repair_exit_reserves" ++
    reasonIf (request.spotBorrowUsd.value > projection.entrySpotBorrowRemainingUsd)
      "spot_borrow_availability" ++
    reasonIf (request.futuresMarginUsd.value > projection.entryFuturesMarginRemainingUsd)
      "futures_margin_after_repair_exit_liquidation_reserves" ++
    reasonIf (request.pairGrossIncrementUsd.value > projection.pairGrossRemainingUsd)
      "pair_gross_cap"

/-- The reasons against a repair or an exit, which may use the protected reserves but neither
capital that does not exist nor the liquidation buffer. -/
def repairReasons (request : NormalizedRequest) (capital : CapitalState)
    (policy : ReservationPolicy) (projection : CapitalProjection) (requiredSpot : ℚ) :
    Except String (List String) := do
  let rawSpot ← decimal capital.spotCashAvailableUsd "spot_cash_available_usd"
  let rawBorrow ← decimal capital.spotBorrowAvailableUsd "spot_borrow_available_usd"
  let rawMargin ← decimal capital.futuresMarginAvailableUsd "futures_margin_available_usd"
  let minimumBuffer ← decimal policy.minimumLiquidationBufferUsd "minimum_liquidation_buffer_usd"
  let spotAfterRows ← host.context.sub rawSpot projection.reservedSpotCashUsd
  let spotLeft ← host.context.sub spotAfterRows projection.reservedFeesUsd
  let borrowLeft ← host.context.sub rawBorrow projection.reservedSpotBorrowUsd
  let marginAfterRows ← host.context.sub rawMargin projection.reservedFuturesMarginUsd
  let marginLeft ← host.context.sub marginAfterRows minimumBuffer
  return reasonIf (requiredSpot > spotLeft) "insufficient_raw_spot_cash_for_repair_or_exit" ++
    reasonIf (request.spotBorrowUsd.value > borrowLeft)
      "insufficient_raw_spot_borrow_for_repair_or_exit" ++
    reasonIf (request.futuresMarginUsd.value > marginLeft)
      "insufficient_raw_margin_for_repair_or_exit"

/-- The margin a request would use in total exceeds the allowed share of equity. Only requests that
open risk are held to it, and only while equity is positive. -/
def utilizationReasons (request : NormalizedRequest) (capital : CapitalState)
    (policy : ReservationPolicy) (projection : CapitalProjection) :
    Except String (List String) := do
  let equity ← decimal capital.equityUsd "equity_usd"
  let maxUtilization ← decimal policy.maxMarginUtilization "max_margin_utilization"
  let currentInitial ← decimal capital.currentInitialMarginUsd "current_initial_margin_usd"
  if request.purpose.entryLike ∧ equity > 0 then
    let claimed ← host.context.add currentInitial projection.reservedFuturesMarginUsd
    let total ← host.context.add claimed request.futuresMarginUsd.value
    let limit ← host.context.mul equity maxUtilization
    return reasonIf (total > limit) "initial_margin_utilization_cap"
  else
    return []

def admissionReasons (request : NormalizedRequest) (capital : CapitalState)
    (policy : ReservationPolicy) (projection : CapitalProjection) :
    Except String (List String) := do
  let requiredSpot ← host.context.add request.spotCashUsd.value request.feesUsd.value
  let reasons ←
    if request.purpose.entryLike then
      pure (entryReasons request projection requiredSpot)
    else
      repairReasons host request capital policy projection requiredSpot
  let utilization ← utilizationReasons host request capital policy projection
  return reasons ++ utilization

/-! ### Operations -/

/-- The row under a reservation id. -/
def Book.find (book : Book) (id : String) : Option ReservationRow :=
  book.rows.find? fun row ↦ row.reservationId = id

/-- The state of the row under a reservation id. -/
def Book.stateOf (book : Book) (id : String) : Option ReservationState :=
  (book.find id).map ReservationRow.state

/-- A row that was never sent and whose expiry has passed. Times are compared as ISO texts. -/
def expired (nowIso : String) (row : ReservationRow) : Bool :=
  row.state = .reserved && match row.expiresAt with
    | none => false
    | some expiresAt => expiresAt ≤ nowIso

/-- The update of one row by `expireSafeUnsent`. -/
def ReservationRow.expire (nowIso : String) (row : ReservationRow) : ReservationRow :=
  if expired nowIso row then
    { row with state := .released, releaseReason := "expired_before_dispatch" }
  else row

theorem expire_reservationId (nowIso : String) (row : ReservationRow) :
    (row.expire nowIso).reservationId = row.reservationId := by
  unfold ReservationRow.expire
  split <;> rfl

/-- An update of rows that keeps their ids. -/
def Book.update (book : Book) (f : ReservationRow → ReservationRow)
    (hid : ∀ row, (f row).reservationId = row.reservationId)
    (added : List ReservationEvent) : Book where
  rows := book.rows.map f
  events := book.events ++ added
  unique := by
    rw [List.map_map, show (fun row : ReservationRow ↦ row.reservationId) ∘ f =
      fun row ↦ row.reservationId from funext hid]
    exact book.unique

def Book.expireSafeUnsent (book : Book) (nowIso : String) : Book :=
  book.update (ReservationRow.expire nowIso) (expire_reservationId nowIso)
    ((book.rows.filter (expired nowIso)).map fun row ↦
      ⟨row.reservationId, some .reserved, .released, "expired_before_dispatch", "\x7b\x7d"⟩)

/-- The row of a request that is admitted. -/
def NormalizedRequest.admitted (request : NormalizedRequest) (requestHash : String) :
    ReservationRow where
  toNormalizedRequest := request
  requestHash := requestHash
  state := .reserved
  exchangeTerminalProven := false
  releaseReason := ""

/-- The book after a request is admitted. -/
def Book.insert (book : Book) (request : NormalizedRequest) (requestHash : String)
    (hfresh : book.find request.reservationId = none) : Book where
  rows := book.rows ++ [request.admitted requestHash]
  events := book.events ++
    [⟨request.reservationId, none, .reserved, "admitted", "\x7b\x7d"⟩]
  unique := by
    have hother : ∀ row ∈ book.rows, row.reservationId ≠ request.reservationId := by
      simpa [Book.find] using hfresh
    rw [List.map_append, List.nodup_append]
    refine ⟨book.unique, by simp, ?_⟩
    simpa [NormalizedRequest.admitted] using hother

/-- The transaction of `reserve` on a normalized request, before it is committed. -/
def Book.reserveNormalized (book : Book) (request : NormalizedRequest) (capital : CapitalState)
    (policy : ReservationPolicy) (nowIso : String) :
    Except String (ReservationDecision × Option Book) := do
  let current := book.expireSafeUnsent nowIso
  match hfound : current.find request.reservationId with
  | some existing =>
    if existing.requestHash ≠ host.requestHash request then
      throw "reservation_id content collision"
    let projection ← current.projection host capital policy (some request.symbol)
    return (⟨existing.state ≠ .released, true, request.reservationId, [], projection⟩,
      some current)
  | none =>
    let projection ← current.projection host capital policy (some request.symbol)
    let reasons ← admissionReasons host request capital policy projection
    if reasons = [] then
      let next := current.insert request (host.requestHash request) hfound
      let resultProjection ← next.projection host capital policy (some request.symbol)
      return (⟨true, false, request.reservationId, [], resultProjection⟩, some next)
    else
      -- A refusal rolls the transaction back, and with it the expiries made on the way.
      return (⟨false, false, request.reservationId, reasons, projection⟩, none)

def Book.reserve (book : Book) (request : ReservationRequest) (capital : CapitalState)
    (policy : ReservationPolicy) (nowIso : String) :
    Except String ReservationDecision × Book :=
  match request.normalized host >>= fun normalized ↦
      book.reserveNormalized host normalized capital policy nowIso with
  | .error message => (.error message, book)
  | .ok (decision, committed) => (.ok decision, committed.getD book)

/-- The name a state has in the table and in messages. -/
def ReservationState.value : ReservationState → String
  | .reserved => "RESERVED"
  | .dispatched => "DISPATCHED"
  | .unknown => "UNKNOWN"
  | .released => "RELEASED"

/-- The row after `transition` moved it. -/
def ReservationRow.moved (row : ReservationRow) (nextState : ReservationState) (reason : String)
    (exchangeTerminalProven : Bool) : ReservationRow :=
  { row with
    state := nextState
    exchangeTerminalProven := row.exchangeTerminalProven || exchangeTerminalProven
    releaseReason := if nextState = .released then reason else row.releaseReason }

/-- The update `transition` makes: the row under `id` moves, every other row stays. -/
def ReservationRow.moveAt (id : String) (nextState : ReservationState) (reason : String)
    (exchangeTerminalProven : Bool) (row : ReservationRow) : ReservationRow :=
  if row.reservationId = id then row.moved nextState reason exchangeTerminalProven else row

theorem moveAt_reservationId (id : String) (nextState : ReservationState) (reason : String)
    (exchangeTerminalProven : Bool) (row : ReservationRow) :
    (row.moveAt id nextState reason exchangeTerminalProven).reservationId = row.reservationId := by
  unfold ReservationRow.moveAt
  split <;> rfl

def Book.transition (book : Book) (id : String) (allowedFrom : List ReservationState)
    (nextState : ReservationState) (reason evidence : String)
    (exchangeTerminalProven : Bool := false) : Except String Unit × Book :=
  match book.stateOf id with
  | none => (.error "unknown reservation", book)
  | some prior =>
    if prior = nextState then (.ok (), book)
    else if prior ∉ allowedFrom then
      (.error ("invalid reservation transition " ++ prior.value ++ " -> " ++ nextState.value), book)
    else
      (.ok (), book.update (ReservationRow.moveAt id nextState reason exchangeTerminalProven)
        (moveAt_reservationId id nextState reason exchangeTerminalProven)
        [⟨id, some prior, nextState, reason, evidence⟩])

def Book.markDispatched (book : Book) (id evidence : String) : Except String Unit × Book :=
  book.transition id [.reserved] .dispatched "order_may_have_reached_exchange" evidence

def Book.markDeliveryUnknown (book : Book) (id evidence : String) : Except String Unit × Book :=
  book.transition id [.reserved, .dispatched, .unknown] .unknown "exchange_effect_unknown" evidence

/-- The check `release` makes on the state it reads outside its transaction. -/
def Book.releaseSelect (book : Book) (id : String) (exchangeTerminalProven : Bool) :
    Except String Unit :=
  match book.stateOf id with
  | none => .error "unknown reservation"
  | some state =>
    if state.InFlight ∧ exchangeTerminalProven = false then
      .error "exchange terminal proof is required before releasing dispatched capital"
    else .ok ()

/-- The transaction of `release`. -/
def Book.releaseTransition (book : Book) (id reason evidence : String)
    (exchangeTerminalProven : Bool) : Except String Unit × Book :=
  book.transition id [.reserved, .dispatched, .unknown] .released reason evidence
    exchangeTerminalProven

/-- A release that no other client interrupts. -/
def Book.release (book : Book) (id reason evidence : String) (exchangeTerminalProven : Bool) :
    Except String Unit × Book :=
  match book.releaseSelect id exchangeTerminalProven with
  | .error message => (.error message, book)
  | .ok () => book.releaseTransition id reason evidence exchangeTerminalProven

/-! ### What each operation does to the book -/

theorem find_update (book : Book) (f : ReservationRow → ReservationRow)
    (hid : ∀ row, (f row).reservationId = row.reservationId) (added : List ReservationEvent)
    (id : String) : (book.update f hid added).find id = (book.find id).map f := by
  have hkey : ((fun row : ReservationRow ↦ decide (row.reservationId = id)) ∘ f) =
      fun row ↦ decide (row.reservationId = id) := funext fun row ↦ by simp [hid]
  rw [Book.find, Book.update, List.find?_map, hkey]
  rfl

theorem find_reservationId {book : Book} {id : String} {row : ReservationRow}
    (hfind : book.find id = some row) : row.reservationId = id := by
  simpa using List.find?_some hfind

/-- Expiry takes a row from reserved to released and touches no other state. -/
theorem stateOf_expireSafeUnsent (book : Book) (nowIso id : String) :
    (book.expireSafeUnsent nowIso).stateOf id = book.stateOf id ∨
      (book.stateOf id = some .reserved ∧
        (book.expireSafeUnsent nowIso).stateOf id = some .released) := by
  unfold Book.stateOf Book.expireSafeUnsent
  rw [find_update]
  cases hfind : book.find id with
  | none => exact Or.inl rfl
  | some row =>
    by_cases hexpired : expired nowIso row = true
    · refine Or.inr ⟨?_, by simp [ReservationRow.expire, hexpired]⟩
      simp only [expired, Bool.and_eq_true, decide_eq_true_eq] at hexpired
      simp [hexpired.1]
    · exact Or.inl (by simp [ReservationRow.expire, hexpired])

theorem stateOf_insert (book : Book) (request : NormalizedRequest) (requestHash : String)
    (hfresh : book.find request.reservationId = none) (id : String) :
    (book.insert request requestHash hfresh).stateOf id =
      if id = request.reservationId then some .reserved else book.stateOf id := by
  unfold Book.stateOf
  by_cases hid : id = request.reservationId
  · subst hid
    have hnone := hfresh
    unfold Book.find at hnone
    simp [Book.find, Book.insert, List.find?_append, hnone, NormalizedRequest.admitted]
  · have hother : request.reservationId ≠ id := fun h ↦ hid h.symm
    simp [Book.find, Book.insert, List.find?_append, NormalizedRequest.admitted, hid, hother]

/-- A transition leaves the book alone, or moves a row that is in one of the allowed states. -/
theorem transition_cases (book : Book) (id : String) (allowedFrom : List ReservationState)
    (nextState : ReservationState) (reason evidence : String) (proven : Bool) :
    (book.transition id allowedFrom nextState reason evidence proven).2 = book ∨
      ∃ prior, book.stateOf id = some prior ∧ prior ≠ nextState ∧ prior ∈ allowedFrom ∧
        (book.transition id allowedFrom nextState reason evidence proven).2 =
          book.update (ReservationRow.moveAt id nextState reason proven)
            (moveAt_reservationId id nextState reason proven)
            [⟨id, some prior, nextState, reason, evidence⟩] := by
  unfold Book.transition
  cases hstate : book.stateOf id with
  | none => exact Or.inl rfl
  | some prior =>
    by_cases hsame : prior = nextState
    · exact Or.inl (by simp [hsame])
    · by_cases hallowed : prior ∈ allowedFrom
      · exact Or.inr ⟨prior, rfl, hsame, hallowed, by simp [hsame, hallowed]⟩
      · exact Or.inl (by simp [hsame, hallowed])

theorem stateOf_moveAt (book : Book) (id : String) (nextState : ReservationState)
    (reason : String) (proven : Bool) (added : List ReservationEvent) (other : String) :
    (book.update (ReservationRow.moveAt id nextState reason proven)
        (moveAt_reservationId id nextState reason proven) added).stateOf other =
      if other = id then (book.stateOf id).map fun _ ↦ nextState else book.stateOf other := by
  unfold Book.stateOf
  rw [find_update]
  by_cases hid : other = id
  · subst hid
    cases hfind : book.find other with
    | none => simp
    | some row =>
      simp [ReservationRow.moveAt, find_reservationId hfind, ReservationRow.moved]
  · cases hfind : book.find other with
    | none => simp [hid]
    | some row =>
      have hother : row.reservationId ≠ id := find_reservationId hfind ▸ hid
      simp [ReservationRow.moveAt, hother, hid]

/-- What a transition does to the state of every id. -/
theorem stateOf_transition (book : Book) (id : String) (allowedFrom : List ReservationState)
    (nextState : ReservationState) (reason evidence : String) (proven : Bool) (other : String) :
    (book.transition id allowedFrom nextState reason evidence proven).2.stateOf other =
      if other = id ∧ ∃ prior ∈ allowedFrom, book.stateOf id = some prior then some nextState
      else book.stateOf other := by
  unfold Book.transition
  cases hstate : book.stateOf id with
  | none => simp
  | some prior =>
    by_cases hsame : prior = nextState
    · subst hsame
      by_cases hid : other = id
      · subst hid
        simp [hstate]
      · simp [hid]
    · by_cases hallowed : prior ∈ allowedFrom
      · by_cases hid : other = id
        · subst hid
          simp [hsame, hallowed, stateOf_moveAt, hstate]
        · simp [hsame, hallowed, stateOf_moveAt, hid]
      · simp [hsame, hallowed]

/-- What `reserve` does: it raises or refuses and leaves the book, it answers a known reservation
and expires the stale rows, or it also adds a request that was admitted against the projection of
what is left. -/
theorem reserve_outcome (book : Book) (request : ReservationRequest) (capital : CapitalState)
    (policy : ReservationPolicy) (nowIso : String) :
    ((book.reserve host request capital policy nowIso).2 = book ∧
      ∀ decision, (book.reserve host request capital policy nowIso).1 = .ok decision →
        decision.allowed = false) ∨
      ((book.reserve host request capital policy nowIso).2 = book.expireSafeUnsent nowIso ∧
        ∀ decision, (book.reserve host request capital policy nowIso).1 = .ok decision →
          decision.duplicate = true) ∨
      ∃ normalized projection hfresh, request.normalized host = .ok normalized ∧
        (book.expireSafeUnsent nowIso).projection host capital policy (some normalized.symbol) =
          .ok projection ∧
        admissionReasons host normalized capital policy projection = .ok [] ∧
        (book.reserve host request capital policy nowIso).2 =
          (book.expireSafeUnsent nowIso).insert normalized (host.requestHash normalized)
            hfresh := by
  unfold Book.reserve
  cases hresult : request.normalized host >>= fun normalized ↦
      book.reserveNormalized host normalized capital policy nowIso with
  | error message => exact Or.inl ⟨rfl, by simp⟩
  | ok outcome =>
    obtain ⟨decision, committed⟩ := outcome
    obtain ⟨normalized, hnormalized, htransaction⟩ := bind_eq_ok.mp hresult
    simp only [Except.ok.injEq, forall_eq']
    unfold Book.reserveNormalized at htransaction
    simp only at htransaction
    split at htransaction
    · split at htransaction
      · simp at htransaction
      · obtain ⟨projection, -, hreturn⟩ := bind_eq_ok.mp htransaction
        simp only [pure_eq_ok, Prod.mk.injEq] at hreturn
        obtain ⟨rfl, rfl⟩ := hreturn
        exact Or.inr (Or.inl ⟨rfl, rfl⟩)
    · next hfresh =>
      obtain ⟨projection, hprojection, hreasons⟩ := bind_eq_ok.mp htransaction
      obtain ⟨reasons, hadmission, hreturn⟩ := bind_eq_ok.mp hreasons
      split at hreturn
      · next hnone =>
        subst hnone
        obtain ⟨after, -, hlast⟩ := bind_eq_ok.mp hreturn
        simp only [pure_eq_ok, Prod.mk.injEq] at hlast
        obtain ⟨-, rfl⟩ := hlast
        exact Or.inr (Or.inr
          ⟨normalized, projection, hfresh, hnormalized, hprojection, hadmission, rfl⟩)
      · simp only [pure_eq_ok, Prod.mk.injEq] at hreturn
        obtain ⟨rfl, rfl⟩ := hreturn
        exact Or.inl ⟨rfl, rfl⟩

/-- The books `reserve` can leave: the same one, the one with its stale rows expired, or that one
with a request added which was admitted against its projection. -/
theorem reserve_cases (book : Book) (request : ReservationRequest) (capital : CapitalState)
    (policy : ReservationPolicy) (nowIso : String) :
    (book.reserve host request capital policy nowIso).2 = book ∨
      (book.reserve host request capital policy nowIso).2 = book.expireSafeUnsent nowIso ∨
      ∃ normalized projection hfresh, request.normalized host = .ok normalized ∧
        (book.expireSafeUnsent nowIso).projection host capital policy (some normalized.symbol) =
          .ok projection ∧
        admissionReasons host normalized capital policy projection = .ok [] ∧
        (book.reserve host request capital policy nowIso).2 =
          (book.expireSafeUnsent nowIso).insert normalized (host.requestHash normalized) hfresh :=
  (reserve_outcome host book request capital policy nowIso).imp And.left (Or.imp_left And.left)

/-- Reserving adds a reserved row under a new id, releases reserved rows, and changes no other
state. -/
theorem stateOf_reserve (book : Book) (request : ReservationRequest) (capital : CapitalState)
    (policy : ReservationPolicy) (nowIso id : String) :
    (book.reserve host request capital policy nowIso).2.stateOf id = book.stateOf id ∨
      (book.stateOf id = some .reserved ∧
        (book.reserve host request capital policy nowIso).2.stateOf id = some .released) ∨
      (book.stateOf id = none ∧
        (book.reserve host request capital policy nowIso).2.stateOf id = some .reserved) := by
  have hexpire := stateOf_expireSafeUnsent book nowIso id
  rcases reserve_cases host book request capital policy nowIso with
    hsame | hexpired | ⟨normalized, projection, hfresh, -, -, -, hinsert⟩
  · exact Or.inl (by rw [hsame])
  · rw [hexpired]
    exact hexpire.imp_right Or.inl
  · rw [hinsert, stateOf_insert]
    by_cases hid : id = normalized.reservationId
    · subst hid
      have hnone : (book.expireSafeUnsent nowIso).stateOf normalized.reservationId = none := by
        simp [Book.stateOf, hfresh]
      rcases hexpire with hkept | ⟨-, hreleased⟩
      · exact Or.inr (Or.inr ⟨hkept ▸ hnone, by simp⟩)
      · rw [hnone] at hreleased
        cases hreleased
    · simp only [hid, if_false]
      exact hexpire.imp_right Or.inl

end Bongus.Capital.ReservationBook
