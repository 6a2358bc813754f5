import Bongus.Lib.Fallible
import Bongus.Lib.Runs
import Mathlib.Data.Rat.Cast.Order
import Mathlib.Tactic.Linarith

/-!
# The budget of requests

`RateLimitBudget` of `bongus/market_data/feed_recovery.py`: tokens that are refilled with the time
and spent by the requests, and a moment before which the exchange wants no request.

A refill moves its reference to the time of the call also when the clock has stepped back, so the
time between the two readings is refilled once more (`stepped_clock_refills_twice`).
`granted_within_budget` bounds what is granted along a run on which no request finds its clock
behind that reference (`ClockForward`).
-/

set_option autoImplicit false
set_option relaxedAutoImplicit false

namespace Bongus.Feed

open Lib.Fallible Lib.Runs

structure RateLimitBudget where
  capacity : ℚ
  refillPerSecond : ℚ
  tokens : ℚ
  lastRefill : Option ℚ := none
  blockedUntil : Option ℚ := none
  capacity_pos : 0 < capacity
  refill_pos : 0 < refillPerSecond

namespace RateLimitBudget

def init (capacity refillPerSecond : ℚ) : Except String RateLimitBudget :=
  if h : 0 < capacity ∧ 0 < refillPerSecond then
    .ok { capacity, refillPerSecond, tokens := capacity, capacity_pos := h.1, refill_pos := h.2 }
  else .error "rate-limit capacity and refill rate must be positive"

def refill (budget : RateLimitBudget) (now : ℚ) : RateLimitBudget :=
  match budget.lastRefill with
  | none => { budget with lastRefill := some now }
  | some last =>
    let elapsed := max 0 (now - last)
    { budget with
      tokens := min budget.capacity (budget.tokens + elapsed * budget.refillPerSecond)
      lastRefill := some now }

def acquire (budget : RateLimitBudget) (weight now : ℚ) :
    Except String (Bool × RateLimitBudget) := do
  if weight ≤ 0 then throw "request weight must be positive and finite"
  let budget := budget.refill now
  if budget.blockedUntil.any (now < ·) then return (false, budget)
  if budget.tokens + 1 / 10 ^ 12 < weight then return (false, budget)
  return (true, { budget with tokens := budget.tokens - weight })

def imposeRetryAfter (budget : RateLimitBudget) (seconds now : ℚ) :
    Except String (ℚ × RateLimitBudget) := do
  if seconds < 0 then throw "retry-after must be finite and non-negative"
  let candidate := now + seconds
  match budget.blockedUntil with
  | none => return (candidate, { budget with blockedUntil := some candidate })
  | some blocked =>
    if blocked < candidate then
      return (candidate, { budget with blockedUntil := some candidate })
    else return (blocked, budget)

end RateLimitBudget

inductive BudgetEvent where
  | acquire (weight now : ℚ)
  | imposeRetryAfter (seconds now : ℚ)
deriving DecidableEq, Repr

/-- A call that raises leaves the budget as it is. -/
def budgetAfter (budget : RateLimitBudget) : BudgetEvent → RateLimitBudget
  | .acquire weight now => ((budget.acquire weight now).toOption.map Prod.snd).getD budget
  | .imposeRetryAfter seconds now =>
    ((budget.imposeRetryAfter seconds now).toOption.map Prod.snd).getD budget

def grants (budget : RateLimitBudget) (weight now : ℚ) : Bool :=
  ((budget.acquire weight now).toOption.map Prod.fst).getD false

/-- The time of a request and the weight that it was granted. -/
def request (budget : RateLimitBudget) : BudgetEvent → Option (ℚ × ℚ)
  | .acquire weight now =>
    if weight ≤ 0 then none else some (now, if grants budget weight now then weight else 0)
  | .imposeRetryAfter _ _ => none

def requests : RateLimitBudget → List BudgetEvent → List (ℚ × ℚ) := logOf budgetAfter request

def granted (log : List (ℚ × ℚ)) : ℚ := (log.map Prod.snd).sum

/-- A request does not find its clock behind the last refill. -/
def ClockForward (budget : RateLimitBudget) : BudgetEvent → Prop
  | .acquire _ now => ∀ last, budget.lastRefill = some last → last ≤ now
  | .imposeRetryAfter _ _ => True

/-- The weight granted is within the capacity and what was refilled between the first time and a
time that is not before any other. -/
def WithinBudget (capacity refillPerSecond : ℚ) (log : List (ℚ × ℚ)) : Prop :=
  ∀ first latest, (log.map Prod.fst).head? = some first →
    (∀ time ∈ log.map Prod.fst, time ≤ latest) →
    granted log ≤ capacity + refillPerSecond * (latest - first) + 1 / 10 ^ 12

/-! ### One request -/

theorem acquire_raises (budget : RateLimitBudget) {weight : ℚ} (now : ℚ) (hweight : weight ≤ 0) :
    budget.acquire weight now = .error "request weight must be positive and finite" := by
  simp only [RateLimitBudget.acquire, hweight, if_true]
  rfl

theorem budgetAfter_raises (budget : RateLimitBudget) {weight : ℚ} (now : ℚ)
    (hweight : weight ≤ 0) : budgetAfter budget (.acquire weight now) = budget := by
  rw [budgetAfter, acquire_raises budget now hweight]
  rfl

/-- A request that does not raise is refused after its refill or takes its weight from the
tokens. -/
theorem acquire_cases (budget : RateLimitBudget) {weight : ℚ} (now : ℚ) (hweight : 0 < weight) :
    (grants budget weight now = false ∧
        budgetAfter budget (.acquire weight now) = budget.refill now) ∨
      (grants budget weight now = true ∧ weight ≤ (budget.refill now).tokens + 1 / 10 ^ 12 ∧
        (budget.refill now).blockedUntil.any (now < ·) = false ∧
        budgetAfter budget (.acquire weight now) =
          { budget.refill now with tokens := (budget.refill now).tokens - weight }) := by
  rw [grants, budgetAfter]
  cases hblocked : (budget.refill now).blockedUntil.any (now < ·) with
  | true =>
    have hrefused : budget.acquire weight now = .ok (false, budget.refill now) := by
      simp only [RateLimitBudget.acquire, not_le.mpr hweight, hblocked, if_true, if_false]
      rfl
    rw [hrefused]
    exact Or.inl ⟨rfl, rfl⟩
  | false =>
    by_cases hshort : (budget.refill now).tokens + 1 / 10 ^ 12 < weight
    · have hrefused : budget.acquire weight now = .ok (false, budget.refill now) := by
        simp only [RateLimitBudget.acquire, not_le.mpr hweight, hblocked, hshort, if_true, if_false,
          Bool.false_eq_true]
        rfl
      rw [hrefused]
      exact Or.inl ⟨rfl, rfl⟩
    · have hgranted : budget.acquire weight now = .ok (true,
          { budget.refill now with tokens := (budget.refill now).tokens - weight }) := by
        simp only [RateLimitBudget.acquire, not_le.mpr hweight, hblocked, hshort, if_false,
          Bool.false_eq_true]
        rfl
      rw [hgranted]
      exact Or.inr ⟨rfl, not_lt.mp hshort, rfl, rfl⟩

/-- A reply of the exchange moves the moment before which it wants no request to a later one. -/
theorem imposeRetryAfter_cases (budget : RateLimitBudget) (seconds now : ℚ) :
    (seconds < 0 ∧ budgetAfter budget (.imposeRetryAfter seconds now) = budget) ∨
      (budgetAfter budget (.imposeRetryAfter seconds now) = budget ∧
        ∃ blocked, budget.blockedUntil = some blocked ∧ now + seconds ≤ blocked) ∨
      (budgetAfter budget (.imposeRetryAfter seconds now) =
          { budget with blockedUntil := some (now + seconds) } ∧
        ∀ blocked, budget.blockedUntil = some blocked → blocked ≤ now + seconds) := by
  unfold budgetAfter
  by_cases hseconds : seconds < 0
  · simp only [RateLimitBudget.imposeRetryAfter, hseconds, if_true]
    exact Or.inl ⟨trivial, rfl⟩
  right
  cases hblocked : budget.blockedUntil with
  | none =>
    simp only [RateLimitBudget.imposeRetryAfter, hseconds, hblocked, if_false]
    exact Or.inr ⟨rfl, by simp⟩
  | some blocked =>
    by_cases hlater : blocked < now + seconds
    · simp only [RateLimitBudget.imposeRetryAfter, hseconds, hblocked, hlater, if_true, if_false]
      refine Or.inr ⟨rfl, fun found hfound ↦ ?_⟩
      obtain rfl := Option.some.inj hfound
      exact hlater.le
    · simp only [RateLimitBudget.imposeRetryAfter, hseconds, hblocked, hlater, if_false]
      exact Or.inl ⟨rfl, blocked, rfl, not_lt.mp hlater⟩

@[simp] theorem refill_blockedUntil (budget : RateLimitBudget) (now : ℚ) :
    (budget.refill now).blockedUntil = budget.blockedUntil := by
  unfold RateLimitBudget.refill
  split <;> rfl

@[simp] theorem refill_limits (budget : RateLimitBudget) (now : ℚ) :
    (budget.refill now).capacity = budget.capacity ∧
      (budget.refill now).refillPerSecond = budget.refillPerSecond ∧
      (budget.refill now).lastRefill = some now := by
  unfold RateLimitBudget.refill
  split <;> exact ⟨rfl, rfl, rfl⟩

/-! ### What is granted -/

/-- Before the first request the budget is full. Afterwards the tokens and what was granted came
from the capacity and from the time since the first request. -/
def Accounts (capacity refillPerSecond : ℚ) (budget : RateLimitBudget) (log : List (ℚ × ℚ)) :
    Prop :=
  budget.capacity = capacity ∧ budget.refillPerSecond = refillPerSecond ∧
    -(1 / 10 ^ 12) ≤ budget.tokens ∧
    match log with
    | [] => budget.tokens ≤ capacity ∧ budget.lastRefill = none
    | first :: _ => ∃ last, budget.lastRefill = some last ∧ last ∈ log.map Prod.fst ∧
        granted log + budget.tokens ≤ capacity + refillPerSecond * (last - first.1)

theorem granted_concat (log : List (ℚ × ℚ)) (now weight : ℚ) :
    granted (log ++ [(now, weight)]) = granted log + weight := by
  simp [granted]

/-- The refill of a request keeps the account, with nothing granted yet. -/
theorem accounts_refill {capacity refillPerSecond : ℚ} {budget : RateLimitBudget}
    {log : List (ℚ × ℚ)} (haccounts : Accounts capacity refillPerSecond budget log) {now : ℚ}
    (hforward : ∀ last, budget.lastRefill = some last → last ≤ now) :
    Accounts capacity refillPerSecond (budget.refill now) (log ++ [(now, 0)]) := by
  obtain ⟨hcapacity, hrate, htokens, hlog⟩ := haccounts
  obtain ⟨hcapacity', hrate', hlast'⟩ := refill_limits budget now
  refine ⟨hcapacity'.trans hcapacity, hrate'.trans hrate, ?_⟩
  cases log with
  | nil =>
    obtain ⟨hfull, hnone⟩ := hlog
    have hrefill : (budget.refill now).tokens = budget.tokens := by
      unfold RateLimitBudget.refill
      rw [hnone]
    rw [hrefill]
    refine ⟨htokens, now, hlast', by simp, ?_⟩
    simp only [List.nil_append, granted, List.map_cons, List.map_nil, List.sum_cons,
      List.sum_nil, sub_self, mul_zero]
    linarith
  | cons first rest =>
    obtain ⟨last, hlast, -, hsum⟩ := hlog
    have hstep : last ≤ now := hforward last hlast
    have hrefill : (budget.refill now).tokens =
        min budget.capacity (budget.tokens + (now - last) * budget.refillPerSecond) := by
      unfold RateLimitBudget.refill
      rw [hlast]
      dsimp only
      rw [max_eq_right (sub_nonneg.mpr hstep)]
    have hadded : 0 ≤ (now - last) * budget.refillPerSecond :=
      mul_nonneg (sub_nonneg.mpr hstep) budget.refill_pos.le
    have hpositive := budget.capacity_pos
    rw [hrefill]
    refine ⟨le_min (by linarith) (by linarith), now, hlast', by simp, ?_⟩
    have htake := min_le_right budget.capacity
      (budget.tokens + (now - last) * budget.refillPerSecond)
    have hgranted : granted (first :: rest ++ [(now, 0)]) = granted (first :: rest) := by
      rw [granted_concat, add_zero]
    rw [hgranted]
    rw [hrate] at htake ⊢
    linarith

/-- What is granted is taken from the tokens. -/
theorem accounts_spend {capacity refillPerSecond now weight : ℚ} {budget : RateLimitBudget}
    {log : List (ℚ × ℚ)}
    (haccounts : Accounts capacity refillPerSecond budget (log ++ [(now, 0)]))
    (hweight : weight ≤ budget.tokens + 1 / 10 ^ 12) :
    Accounts capacity refillPerSecond { budget with tokens := budget.tokens - weight }
      (log ++ [(now, weight)]) := by
  obtain ⟨hcapacity, hrate, -, hlog⟩ := haccounts
  refine ⟨hcapacity, hrate, by linarith, ?_⟩
  have hsum := granted_concat log now weight
  have hbefore := granted_concat log now 0
  cases log with
  | nil =>
    obtain ⟨last, hlast, hmem, htotal⟩ := hlog
    refine ⟨last, hlast, hmem, ?_⟩
    simp only [List.nil_append] at *
    linarith
  | cons first rest =>
    obtain ⟨last, hlast, hmem, htotal⟩ := hlog
    refine ⟨last, hlast, by simpa using hmem, ?_⟩
    simp only [List.cons_append] at *
    linarith

theorem accounts_step {capacity refillPerSecond : ℚ} (budget : RateLimitBudget)
    (log : List (ℚ × ℚ)) (event : BudgetEvent)
    (haccounts : Accounts capacity refillPerSecond budget log)
    (hforward : ClockForward budget event) :
    Accounts capacity refillPerSecond (budgetAfter budget event)
      (log ++ (request budget event).toList) := by
  cases event with
  | acquire weight now =>
    by_cases hraises : weight ≤ 0
    · rw [budgetAfter_raises budget now hraises, request, if_pos hraises, Option.toList_none,
        List.append_nil]
      exact haccounts
    rw [request, if_neg hraises, Option.toList_some]
    have hrefilled := accounts_refill haccounts hforward
    rcases acquire_cases budget now (not_le.mp hraises) with
      ⟨hgrants, hafter⟩ | ⟨hgrants, henough, -, hafter⟩
    · rw [hgrants, hafter]
      exact hrefilled
    · rw [hgrants, hafter]
      exact accounts_spend hrefilled henough
  | imposeRetryAfter seconds now =>
    rw [request, Option.toList_none, List.append_nil]
    rcases imposeRetryAfter_cases budget seconds now with ⟨-, hafter⟩ | ⟨hafter, -⟩ | ⟨hafter, -⟩
    · rw [hafter]
      exact haccounts
    · rw [hafter]
      exact haccounts
    · rw [hafter]
      exact haccounts

/-- An account bounds what was granted by any time that is not before the others. -/
theorem withinBudget_of_accounts {capacity refillPerSecond : ℚ} {budget : RateLimitBudget}
    {log : List (ℚ × ℚ)} (haccounts : Accounts capacity refillPerSecond budget log) :
    WithinBudget capacity refillPerSecond log := by
  obtain ⟨-, hrate, htokens, hlog⟩ := haccounts
  intro first latest hfirst hlatest
  cases log with
  | nil => simp at hfirst
  | cons entry rest =>
    obtain ⟨last, -, hmem, htotal⟩ := hlog
    obtain rfl : entry.1 = first := by simpa using hfirst
    have hspan : refillPerSecond * (last - entry.1) ≤ refillPerSecond * (latest - entry.1) :=
      mul_le_mul_of_nonneg_left (sub_le_sub_right (hlatest last hmem) _)
        (hrate ▸ budget.refill_pos.le)
    linarith

/-! ### The moment before which nothing is granted -/

/-- The budget is blocked until each moment that was imposed. -/
def Blocked (budget : RateLimitBudget) (moment : ℚ) : Prop :=
  ∃ blocked, budget.blockedUntil = some blocked ∧ moment ≤ blocked

theorem blocked_step {moment : ℚ} (budget : RateLimitBudget) (event : BudgetEvent)
    (hblocked : Blocked budget moment) : Blocked (budgetAfter budget event) moment := by
  obtain ⟨blocked, hfound, hmoment⟩ := hblocked
  cases event with
  | acquire weight now =>
    refine ⟨blocked, ?_, hmoment⟩
    rcases le_or_gt weight 0 with hraises | hweight
    · rw [budgetAfter_raises budget now hraises, hfound]
    rcases acquire_cases budget now hweight with ⟨-, hafter⟩ | ⟨-, -, -, hafter⟩
    · rw [hafter, refill_blockedUntil, hfound]
    · rw [hafter]
      exact (refill_blockedUntil budget now).trans hfound
  | imposeRetryAfter seconds now =>
    rcases imposeRetryAfter_cases budget seconds now with
      ⟨-, hafter⟩ | ⟨hafter, -⟩ | ⟨hafter, hlater⟩
    · rw [hafter]
      exact ⟨blocked, hfound, hmoment⟩
    · rw [hafter]
      exact ⟨blocked, hfound, hmoment⟩
    · rw [hafter]
      exact ⟨now + seconds, rfl, hmoment.trans (hlater blocked hfound)⟩

theorem blocked_impose (budget : RateLimitBudget) {seconds : ℚ} (now : ℚ) (hseconds : 0 ≤ seconds) :
    Blocked (budgetAfter budget (.imposeRetryAfter seconds now)) (now + seconds) := by
  rcases imposeRetryAfter_cases budget seconds now with
    ⟨hraises, -⟩ | ⟨hafter, blocked, hfound, hlater⟩ | ⟨hafter, -⟩
  · exact absurd hseconds (not_le.mpr hraises)
  · rw [hafter]
    exact ⟨blocked, hfound, hlater⟩
  · rw [hafter]
    exact ⟨now + seconds, rfl, le_rfl⟩

/-- A moment that was imposed blocks the budget from then on. -/
theorem blocked_run {budget : RateLimitBudget} {events : List BudgetEvent} {seconds now : ℚ}
    (himposed : .imposeRetryAfter seconds now ∈ events) (hseconds : 0 ≤ seconds) :
    Blocked (run budgetAfter budget events) (now + seconds) := by
  obtain ⟨before, after, rfl⟩ := List.append_of_mem himposed
  rw [run_append, run_cons]
  exact invariant_run (Blocked · (now + seconds))
    (blocked_impose (run budgetAfter budget before) now hseconds) blocked_step after

/-- Nothing is granted before a moment that blocks the budget. -/
theorem moment_le_of_grants {budget : RateLimitBudget} {moment weight now : ℚ}
    (hblocked : Blocked budget moment) (hgrants : grants budget weight now = true) :
    moment ≤ now := by
  obtain ⟨blocked, hfound, hmoment⟩ := hblocked
  rcases le_or_gt weight 0 with hraises | hweight
  · rw [grants, acquire_raises budget now hraises] at hgrants
    cases hgrants
  rcases acquire_cases budget now hweight with ⟨hrefused, -⟩ | ⟨-, -, hopen, -⟩
  · rw [hrefused] at hgrants
    cases hgrants
  · rw [refill_blockedUntil, hfound] at hopen
    exact hmoment.trans (not_lt.mp (of_decide_eq_false hopen))

/-! ### Runs -/

/-- Along a run on which the clock of no request is behind the last refill, the weight granted is
within the capacity and the refill; on every run, nothing is granted before a moment imposed by the
exchange. -/
theorem granted_within_budget {capacity refillPerSecond : ℚ} {budget : RateLimitBudget}
    (hinit : RateLimitBudget.init capacity refillPerSecond = .ok budget)
    (events : List BudgetEvent) :
    (Along budgetAfter ClockForward budget events →
        WithinBudget capacity refillPerSecond (requests budget events)) ∧
      ∀ before weight now after, events = before ++ .acquire weight now :: after →
        grants (run budgetAfter budget before) weight now = true →
          ∀ seconds time, .imposeRetryAfter seconds time ∈ before → 0 ≤ seconds →
            time + seconds ≤ now := by
  refine ⟨fun halong ↦ ?_, ?_⟩
  · have hstart : Accounts capacity refillPerSecond budget [] := by
      unfold RateLimitBudget.init at hinit
      split at hinit
      · next hpositive =>
        obtain rfl := Except.ok.inj hinit
        refine ⟨rfl, rfl, ?_, le_rfl, rfl⟩
        exact (neg_nonpos.mpr (by positivity)).trans hpositive.1.le
      · cases hinit
    exact withinBudget_of_accounts (invariant_log request
      (Accounts capacity refillPerSecond) hstart accounts_step halong)
  · intro before weight now after hsplit hgrants seconds time himposed hseconds
    exact moment_le_of_grants (blocked_run himposed hseconds) hgrants

def singleToken : RateLimitBudget where
  capacity := 1
  refillPerSecond := 1
  tokens := 1
  capacity_pos := by decide
  refill_pos := by decide

theorem granted_within_budget_singleToken :
    Along budgetAfter ClockForward singleToken [.acquire 1 0, .acquire 1 1] ∧
      WithinBudget 1 1 (requests singleToken [.acquire 1 0, .acquire 1 1]) := by
  have hinit : RateLimitBudget.init 1 1 = .ok singleToken := rfl
  have halong : Along budgetAfter ClockForward singleToken [.acquire 1 0, .acquire 1 1] := by
    refine ⟨fun last hlast ↦ ?_, fun last hlast ↦ ?_, trivial⟩
    · cases hlast
    · have hzero : (budgetAfter singleToken (.acquire 1 0)).lastRefill = some 0 := by
        decide +kernel
      obtain rfl := Option.some.inj (hzero.symm.trans hlast)
      decide
  exact ⟨halong, (granted_within_budget hinit _).1 halong⟩

/-- The clock steps back by a second between two requests: the second that was refilled before is
refilled once more, and three tokens are granted where the budget allows two. -/
theorem stepped_clock_refills_twice :
    RateLimitBudget.init 1 1 = .ok singleToken ∧
      granted (requests singleToken
        [.acquire 1 0, .acquire 1 1, .acquire 1 0, .acquire 1 1]) = 3 ∧
      ¬ WithinBudget 1 1 (requests singleToken
        [.acquire 1 0, .acquire 1 1, .acquire 1 0, .acquire 1 1]) := by
  refine ⟨rfl, by decide +kernel, fun hwithin ↦ ?_⟩
  have hbound := hwithin 0 1 (by decide +kernel) (by decide +kernel)
  revert hbound
  decide +kernel

end Bongus.Feed
