import Mathlib.Algebra.Order.BigOperators.Group.List
import Mathlib.Data.Rat.Cast.Order
import Mathlib.Tactic.FieldSimp
import Mathlib.Tactic.LinearCombination
import Mathlib.Tactic.Linarith

/-!
# The walk over one side of a book

The loop of `executable_leg_capacity` in `bongus/market_data/depth_tracker.py`: the levels of a side
are taken one after the other until what is left of the request is within a tolerance. The prices of
a side are worst last, rising on the asks and falling on the bids; with the sign of the side both
rise (`Sorted`), and one argument serves the two.

`walk_outcome` says what the walk leaves of the request, `priced_walk` that its average price is
between the first and the last price, and `walk_mono` compares two requests: both take the same
levels until the smaller one is filled, and what the larger one takes from there on has no better
price.
-/

set_option autoImplicit false
set_option relaxedAutoImplicit false

namespace Bongus.Depth

/-- A price and a quantity. -/
abbrev Level := ℚ × ℚ

inductive OrderSide where
  | buy
  | sell
deriving DecidableEq, Repr

/-- A price that is worse for the side is larger with its sign. -/
def OrderSide.sign : OrderSide → ℚ
  | .buy => 1
  | .sell => -1

structure Walk where
  remaining : ℚ
  executedQuote : ℚ := 0
  executedBase : ℚ := 0
  worstPrice : ℚ := 0
deriving DecidableEq, Repr

def tolerance (requested : ℚ) : ℚ := max (1 / 10 ^ 9) (requested * (1 / 10 ^ 12))

def Walk.take (state : Walk) (price takeQuote : ℚ) : Walk where
  remaining := state.remaining - takeQuote
  executedQuote := state.executedQuote + takeQuote
  executedBase := state.executedBase + takeQuote / price
  worstPrice := price

def walk (requested : ℚ) : List Level → Walk → Walk
  | [], state => state
  | (price, quantity) :: rest, state =>
    let takeQuote := min state.remaining (price * quantity)
    if takeQuote ≤ 0 then state
    else
      let next := state.take price takeQuote
      if next.remaining ≤ tolerance requested then { next with remaining := 0 }
      else walk requested rest next

def notional (levels : List Level) : ℚ := (levels.map fun level ↦ level.1 * level.2).sum

/-! ### Sides -/

def Positive (levels : List Level) : Prop := ∀ level ∈ levels, 0 < level.1 ∧ 0 < level.2

def Sorted (side : OrderSide) (levels : List Level) : Prop :=
  levels.Pairwise fun better worse ↦ side.sign * better.1 ≤ side.sign * worse.1

/-- The walk is at a state from which it goes on: something is left, and more than the tolerance if
there is no level left. -/
structure Going (requested : ℚ) (levels : List Level) (state : Walk) : Prop where
  balance : state.executedQuote + state.remaining = requested
  remaining_pos : 0 < state.remaining
  unfilled : levels = [] → tolerance requested < state.remaining

theorem tolerance_pos (requested : ℚ) : 0 < tolerance requested :=
  lt_max_of_lt_left (by norm_num)

/-- What a request wants at least grows with it. -/
theorem sub_tolerance_mono {small large : ℚ} (hle : small ≤ large) :
    small - tolerance small ≤ large - tolerance large := by
  unfold tolerance
  rcases max_cases (1 / 10 ^ 9 : ℚ) (large * (1 / 10 ^ 12)) with ⟨hmax, -⟩ | ⟨hmax, -⟩
  · have hsmall := le_max_left (1 / 10 ^ 9 : ℚ) (small * (1 / 10 ^ 12))
    rw [hmax]
    linarith
  · have hsmall := le_max_right (1 / 10 ^ 9 : ℚ) (small * (1 / 10 ^ 12))
    rw [hmax]
    linarith

section Step

variable {requested price quantity : ℚ} {rest : List Level} {state : Walk}

/-- At a level the walk ends within the tolerance, or takes the whole level and goes on. -/
theorem walk_cons (hlevel : 0 < price ∧ 0 < quantity)
    (hgoing : Going requested ((price, quantity) :: rest) state) :
    (0 < min state.remaining (price * quantity) ∧
        state.remaining - min state.remaining (price * quantity) ≤ tolerance requested ∧
        walk requested ((price, quantity) :: rest) state =
          { state.take price (min state.remaining (price * quantity)) with remaining := 0 }) ∨
      (price * quantity + tolerance requested < state.remaining ∧
        Going requested rest (state.take price (price * quantity)) ∧
        walk requested ((price, quantity) :: rest) state =
          walk requested rest (state.take price (price * quantity))) := by
  have hquote : 0 < price * quantity := mul_pos hlevel.1 hlevel.2
  have htake : 0 < min state.remaining (price * quantity) := lt_min hgoing.remaining_pos hquote
  have htolerance := tolerance_pos requested
  rw [walk]
  dsimp only
  rw [if_neg (not_le.mpr htake)]
  by_cases hends : state.remaining - min state.remaining (price * quantity) ≤ tolerance requested
  · left
    exact ⟨htake, hends, if_pos hends⟩
  · right
    have hwhole : min state.remaining (price * quantity) = price * quantity := by
      refine min_eq_right (not_lt.mp fun hsmall ↦ hends ?_)
      rw [min_eq_left hsmall.le, sub_self]
      exact htolerance.le
    rw [hwhole] at hends ⊢
    have hmore : price * quantity + tolerance requested < state.remaining := by linarith
    refine ⟨hmore, ⟨?_, ?_, fun _ ↦ ?_⟩, if_neg hends⟩
    · have hbalance := hgoing.balance
      simp only [Walk.take]
      linarith
    · simp only [Walk.take]
      linarith
    · simp only [Walk.take]
      linarith

end Step

/-- The walk fills the request within the tolerance, or takes the whole side and leaves more than
the tolerance. -/
theorem walk_outcome {requested : ℚ} {levels : List Level} {state : Walk}
    (hpositive : Positive levels) (hgoing : Going requested levels state) :
    let final := walk requested levels state
    (final.remaining = 0 ∧ requested - final.executedQuote ≤ tolerance requested ∧
        final.executedQuote ≤ requested ∧
        final.executedQuote ≤ state.executedQuote + notional levels) ∨
      (0 < final.remaining ∧ tolerance requested < requested - final.executedQuote ∧
        final.executedQuote = state.executedQuote + notional levels) := by
  intro final
  induction levels generalizing state with
  | nil =>
    right
    have hleft : tolerance requested < state.remaining := hgoing.unfilled rfl
    have hbalance := hgoing.balance
    change 0 < state.remaining ∧ tolerance requested < requested - state.executedQuote ∧
      state.executedQuote = state.executedQuote + 0
    exact ⟨hgoing.remaining_pos, by linarith, (add_zero _).symm⟩
  | cons level rest ih =>
    obtain ⟨price, quantity⟩ := level
    obtain ⟨hlevel, hrest⟩ := List.forall_mem_cons.mp hpositive
    have hnotional : notional ((price, quantity) :: rest) = price * quantity + notional rest := by
      simp [notional]
    have hbalance := hgoing.balance
    rcases walk_cons hlevel hgoing with ⟨-, hends, hwalk⟩ | ⟨-, hnext, hwalk⟩
    · left
      have hless : 0 ≤ notional rest := by
        refine List.sum_nonneg fun value hvalue ↦ ?_
        obtain ⟨level, hmem, rfl⟩ := List.mem_map.mp hvalue
        exact (mul_pos (hrest level hmem).1 (hrest level hmem).2).le
      have hleft := min_le_left state.remaining (price * quantity)
      have hright := min_le_right state.remaining (price * quantity)
      simp only [final, hwalk, hnotional, Walk.take]
      exact ⟨trivial, by linarith, by linarith, by linarith⟩
    · have houtcome := ih hrest hnext
      simp only [final, hwalk, hnotional]
      rw [← add_assoc]
      exact houtcome

/-! ### The average price -/

/-- The average price is between the best price and the last one, and the levels that follow have
no better price than the last one. -/
structure Priced (side : OrderSide) (best : ℚ) (levels : List Level) (state : Walk) : Prop where
  quote_pos : 0 < state.executedQuote
  base_pos : 0 < state.executedBase
  best_le : side.sign * best * state.executedBase ≤ side.sign * state.executedQuote
  le_worst : side.sign * state.executedQuote ≤ side.sign * state.worstPrice * state.executedBase
  best_le_worst : side.sign * best ≤ side.sign * state.worstPrice
  worse : ∀ level ∈ levels, side.sign * state.worstPrice ≤ side.sign * level.1

/-- What is taken at a price that is no better keeps the average between the two. -/
theorem Priced.take {side : OrderSide} {best : ℚ} {levels : List Level} {state : Walk}
    {price takeQuote : ℚ} (hpriced : Priced side best levels state) (hprice : 0 < price)
    (htake : 0 < takeQuote) (hworse : side.sign * state.worstPrice ≤ side.sign * price)
    {rest : List Level} (hrest : ∀ level ∈ rest, side.sign * price ≤ side.sign * level.1) :
    Priced side best rest (state.take price takeQuote) := by
  have hbase : 0 < takeQuote / price := div_pos htake hprice
  have hcancel : price * (takeQuote / price) = takeQuote := mul_div_cancel₀ takeQuote hprice.ne'
  have hbest : side.sign * best ≤ side.sign * price := hpriced.best_le_worst.trans hworse
  refine ⟨add_pos hpriced.quote_pos htake, add_pos hpriced.base_pos hbase, ?_, ?_, hbest, hrest⟩
  · have hpart := mul_le_mul_of_nonneg_right hbest hbase.le
    have hwhole := hpriced.best_le
    simp only [Walk.take]
    linear_combination hwhole + hpart + side.sign * hcancel
  · have hpart := mul_le_mul_of_nonneg_right hworse hpriced.base_pos.le
    have hwhole := hpriced.le_worst
    simp only [Walk.take]
    linear_combination hwhole + hpart - side.sign * hcancel

/-- The first level starts the average. -/
theorem priced_first {side : OrderSide} {price quantity takeQuote : ℚ} {rest : List Level}
    (requested : ℚ) (hprice : 0 < price) (htake : 0 < takeQuote)
    (hsorted : Sorted side ((price, quantity) :: rest)) :
    Priced side price rest (Walk.take { remaining := requested } price takeQuote) := by
  have hbase : 0 < takeQuote / price := div_pos htake hprice
  have hcancel : price * (takeQuote / price) = takeQuote := mul_div_cancel₀ takeQuote hprice.ne'
  refine ⟨?_, ?_, ?_, ?_, le_rfl, (List.pairwise_cons.mp hsorted).1⟩
  · simpa [Walk.take] using htake
  · simpa [Walk.take] using hbase
  · simp only [Walk.take, zero_add]
    exact le_of_eq (by rw [mul_assoc, hcancel])
  · simp only [Walk.take, zero_add]
    exact le_of_eq (by rw [mul_assoc, hcancel])

theorem priced_walk {side : OrderSide} {best requested : ℚ} {levels : List Level} {state : Walk}
    (hpositive : Positive levels) (hsorted : Sorted side levels)
    (hgoing : Going requested levels state) (hpriced : Priced side best levels state) :
    Priced side best [] (walk requested levels state) := by
  induction levels generalizing state with
  | nil => exact hpriced
  | cons level rest ih =>
    obtain ⟨price, quantity⟩ := level
    obtain ⟨hlevel, hrest⟩ := List.forall_mem_cons.mp hpositive
    obtain ⟨hworse, hsorted⟩ := List.pairwise_cons.mp hsorted
    have hprice := hpriced.worse (price, quantity) List.mem_cons_self
    rcases walk_cons hlevel hgoing with ⟨htake, -, hwalk⟩ | ⟨-, hnext, hwalk⟩
    · rw [hwalk]
      have htaken := hpriced.take hlevel.1 htake hprice hworse
      exact ⟨htaken.quote_pos, htaken.base_pos, htaken.best_le, htaken.le_worst,
        htaken.best_le_worst, by simp⟩
    · rw [hwalk]
      exact ih hrest hsorted hnext
        (hpriced.take hlevel.1 (mul_pos hlevel.1 hlevel.2) hprice hworse)

/-! ### Two requests -/

/-- One walk has executed no more than another, at an average price that is no worse. -/
structure Within (side : OrderSide) (small large : Walk) : Prop where
  quote_le : small.executedQuote ≤ large.executedQuote
  base_le : small.executedBase ≤ large.executedBase
  average_le : side.sign * (small.executedQuote * large.executedBase) ≤
    side.sign * (large.executedQuote * small.executedBase)

/-- The average price of a walk is no worse than the levels that follow. -/
structure Cheaper (side : OrderSide) (levels : List Level) (state : Walk) : Prop where
  quote_nonneg : 0 ≤ state.executedQuote
  base_nonneg : 0 ≤ state.executedBase
  le_price : ∀ level ∈ levels,
    side.sign * state.executedQuote ≤ side.sign * level.1 * state.executedBase

theorem Cheaper.take {side : OrderSide} {price quantity takeQuote : ℚ} {rest : List Level}
    {state : Walk} (hcheaper : Cheaper side ((price, quantity) :: rest) state) (hprice : 0 < price)
    (htake : 0 ≤ takeQuote) (hsorted : Sorted side ((price, quantity) :: rest)) :
    Cheaper side rest (state.take price takeQuote) := by
  have hbase : 0 ≤ takeQuote / price := div_nonneg htake hprice.le
  have hcancel : price * (takeQuote / price) = takeQuote := mul_div_cancel₀ takeQuote hprice.ne'
  refine ⟨add_nonneg hcheaper.quote_nonneg htake, add_nonneg hcheaper.base_nonneg hbase,
    fun level hmem ↦ ?_⟩
  have hworse : side.sign * price ≤ side.sign * level.1 :=
    (List.pairwise_cons.mp hsorted).1 level hmem
  have hpart := mul_le_mul_of_nonneg_right hworse hbase
  have hwhole := hcheaper.le_price level (List.mem_cons_of_mem _ hmem)
  simp only [Walk.take]
  linear_combination hwhole + hpart - side.sign * hcancel

/-- Of two amounts taken at one level, the larger one gives the worse average. -/
theorem within_take {side : OrderSide} {price quantity less more : ℚ} {rest : List Level}
    {state other : Walk} (hcheaper : Cheaper side ((price, quantity) :: rest) state)
    (hquote : other.executedQuote = state.executedQuote)
    (hbase : other.executedBase = state.executedBase) (hprice : 0 < price) (hle : less ≤ more) :
    Within side (state.take price less) (other.take price more) := by
  have hmore : 0 ≤ (more - less) / price := div_nonneg (sub_nonneg.mpr hle) hprice.le
  have hcancel (amount : ℚ) : price * (amount / price) = amount :=
    mul_div_cancel₀ amount hprice.ne'
  have hsplit : (more - less) / price = more / price - less / price := sub_div more less price
  have hstate := hcheaper.le_price (price, quantity) List.mem_cons_self
  refine ⟨?_, ?_, ?_⟩
  · simp only [Walk.take, hquote]
    linarith
  · simp only [Walk.take, hbase]
    linarith
  · have hpart := mul_le_mul_of_nonneg_right hstate hmore
    simp only [Walk.take, hquote, hbase]
    rw [hsplit] at hpart
    linear_combination hpart + side.sign * state.executedBase * (hcancel more - hcancel less) +
      side.sign * (less / price * hcancel more - more / price * hcancel less)

/-- What a walk goes on to take has no better price than the average of one that has stopped. -/
theorem within_walk {side : OrderSide} {requested : ℚ} {levels : List Level} {small state : Walk}
    (hpositive : Positive levels) (hgoing : Going requested levels state)
    (hcheaper : Cheaper side levels small) (hwithin : Within side small state) :
    Within side small (walk requested levels state) := by
  have hstep {price takeQuote : ℚ} {current : Walk} (hcurrent : Within side small current)
      (hprice : 0 < price) (htake : 0 ≤ takeQuote)
      (haverage : side.sign * small.executedQuote ≤ side.sign * price * small.executedBase) :
      Within side small (current.take price takeQuote) := by
    have hbase : 0 ≤ takeQuote / price := div_nonneg htake hprice.le
    have hcancel : price * (takeQuote / price) = takeQuote :=
      mul_div_cancel₀ takeQuote hprice.ne'
    have hpart := mul_le_mul_of_nonneg_right haverage hbase
    refine ⟨?_, ?_, ?_⟩
    · exact hcurrent.quote_le.trans (le_add_of_nonneg_right htake)
    · exact hcurrent.base_le.trans (le_add_of_nonneg_right hbase)
    · have hwhole := hcurrent.average_le
      simp only [Walk.take]
      linear_combination hwhole + hpart + side.sign * small.executedBase * hcancel
  induction levels generalizing state with
  | nil => exact hwithin
  | cons level rest ih =>
    obtain ⟨price, quantity⟩ := level
    obtain ⟨hlevel, hrest⟩ := List.forall_mem_cons.mp hpositive
    have haverage := hcheaper.le_price (price, quantity) List.mem_cons_self
    have hlater : Cheaper side rest small := ⟨hcheaper.quote_nonneg, hcheaper.base_nonneg,
      fun level hmem ↦ hcheaper.le_price level (List.mem_cons_of_mem _ hmem)⟩
    rcases walk_cons hlevel hgoing with ⟨htake, -, hwalk⟩ | ⟨-, hnext, hwalk⟩
    · rw [hwalk]
      have htaken := hstep hwithin hlevel.1 htake.le haverage
      exact ⟨htaken.quote_le, htaken.base_le, htaken.average_le⟩
    · rw [hwalk]
      exact ih hrest hnext hlater
        (hstep hwithin hlevel.1 (mul_pos hlevel.1 hlevel.2).le haverage)

/-- A smaller request executes no more, at an average price that is no worse. -/
theorem walk_mono {side : OrderSide} {small large : ℚ} {levels : List Level} {state other : Walk}
    (hpositive : Positive levels) (hsorted : Sorted side levels) (hle : small ≤ large)
    (hgoing : Going small levels state) (hother : Going large levels other)
    (hquote : other.executedQuote = state.executedQuote)
    (hbase : other.executedBase = state.executedBase) (hcheaper : Cheaper side levels state) :
    Within side (walk small levels state) (walk large levels other) := by
  induction levels generalizing state other with
  | nil =>
    refine ⟨hquote.ge, hbase.ge, ?_⟩
    simp only [walk, hquote, hbase]
    exact le_rfl
  | cons level rest ih =>
    obtain ⟨price, quantity⟩ := level
    obtain ⟨hlevel, hrest⟩ := List.forall_mem_cons.mp hpositive
    have hmore : state.remaining ≤ other.remaining := by
      have hbalance := hgoing.balance
      have hlarger := hother.balance
      linarith
    rcases walk_cons hlevel hgoing with ⟨htake, -, hwalk⟩ | ⟨hleft, hnext, hwalk⟩
    · have hless := min_le_min_right (price * quantity) hmore
      have htaken := hcheaper.take hlevel.1 htake.le hsorted
      rcases walk_cons hlevel hother with ⟨-, -, hlarger⟩ | ⟨-, hgoes, hlarger⟩
      · rw [hwalk, hlarger]
        have hwithin := within_take hcheaper hquote hbase hlevel.1 hless
        exact ⟨hwithin.quote_le, hwithin.base_le, hwithin.average_le⟩
      · rw [hwalk, hlarger]
        refine within_walk hrest hgoes
          ⟨htaken.quote_nonneg, htaken.base_nonneg, htaken.le_price⟩ ?_
        have hwithin := within_take hcheaper hquote hbase hlevel.1
          (min_le_right state.remaining (price * quantity))
        exact ⟨hwithin.quote_le, hwithin.base_le, hwithin.average_le⟩
    · rcases walk_cons hlevel hother with ⟨-, hends, -⟩ | ⟨-, hgoes, hlarger⟩
      · -- The larger request would be filled by a level that does not fill the smaller one.
        exfalso
        have hwants := sub_tolerance_mono hle
        have hbalance := hgoing.balance
        have hlarger := hother.balance
        have htolerance := tolerance_pos small
        rw [min_eq_right (by linarith)] at hends
        linarith
      · rw [hwalk, hlarger]
        refine ih hrest (List.pairwise_cons.mp hsorted).2 hnext hgoes ?_ ?_
          (hcheaper.take hlevel.1 (mul_pos hlevel.1 hlevel.2).le hsorted)
        · simp only [Walk.take, hquote]
        · simp only [Walk.take, hbase]

end Bongus.Depth
