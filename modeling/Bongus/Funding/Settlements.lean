import Bongus.Funding.Calendar
import Bongus.Lib.Progressions
import Mathlib.Data.Set.Card

/-!
# The settlements of a calendar

`next_settlement`, `previous_settlement` and `settlements_between` of
`bongus/market_data/funding_calendar.py`. The settlements of a symbol are the points of a
progression (`FundingSchedule.grid`), from the reported time of the next settlement if there is one
and from the epoch otherwise. Divisions of durations are exact.

The next and the previous settlement are those of the grid (`nextSettlement_eq_ok`,
`previousSettlement_eq_ok`), as far as they are times that Python has. A range is listed in order,
but a range with as many settlements as are allowed is refused as one with more, and so is one that
ends behind the last settlement before the year 10000 (`settlementsBetween_eq_ok`,
`calendarLaws_iff`).
-/

set_option autoImplicit false
set_option relaxedAutoImplicit false

namespace Bongus.Funding

open Lib.Fallible Lib.Progressions

/-! ### The calls -/

section Calls

variable (upper : String → String) (calendar : FundingCalendar) (symbol : String)

def nextSettlement (after : Datetime) : Except String Datetime := do
  let schedule := calendar.schedule upper symbol
  let interval ← timedeltaHours schedule.intervalHours
  match schedule.nextFundingTime with
  | some candidate =>
    let steps := (after.val - candidate.val).fdiv interval + 1
    let candidate ← candidate.plus (interval * steps)
    if candidate ≤ after then candidate.plus interval else return candidate
  | none =>
    let intervalSeconds := schedule.intervalHours * 60 * 60
    let epochSeconds := after.val.tdiv 1000000
    let nextEpoch := (epochSeconds.fdiv intervalSeconds + 1) * intervalSeconds
    Datetime.fromTimestamp nextEpoch

def previousSettlement (before : Datetime) : Except String Datetime := do
  let interval ← timedeltaHours (calendar.schedule upper symbol).intervalHours
  let next ← nextSettlement upper calendar symbol before
  next.plus (-interval)

/-- The loop of `settlements_between`, with the room that is left in the result. -/
def collect (interval : ℤ) (stop : Datetime) : ℕ → Datetime → Except String (List Datetime)
  | 0, _ => throw "settlement range exceeds safety limit"
  | room + 1, current =>
    if current ≤ stop then
      if room = 0 then throw "settlement range exceeds safety limit"
      else do
        let next ← current.plus interval
        let rest ← collect interval stop room next
        return current :: rest
    else return []

def settlementsBetween (start stop : Datetime) (maxSettlements : ℤ) :
    Except String (List Datetime) :=
  if stop ≤ start then return []
  else if maxSettlements ≤ 0 then throw "max_settlements must be positive"
  else do
    let interval ← timedeltaHours (calendar.schedule upper symbol).intervalHours
    let current ← nextSettlement upper calendar symbol start
    collect interval stop maxSettlements.toNat current

end Calls

/-! ### The grid -/

namespace FundingSchedule

variable (schedule : FundingSchedule)

def anchor : ℤ := schedule.nextFundingTime.elim 0 Subtype.val

/-- The interval in microseconds. -/
def step : ℤ := schedule.intervalHours * 3600000000

/-- The times at which the symbol is settled. -/
def grid : Set Datetime := {time | time.val ∈ progression schedule.anchor schedule.step}

/-- The settlements after one time and up to another. -/
def window (start stop : Datetime) : Set Datetime :=
  {time | time ∈ schedule.grid ∧ start < time ∧ time ≤ stop}

/-- The interval is a duration that Python has. -/
def IsDuration : Prop := schedule.intervalHours ≤ 23999999999

theorem step_pos : 0 < schedule.step := mul_pos schedule.interval_pos (by norm_num)

variable {schedule}

theorem timedeltaHours_eq_ok {interval : ℤ} :
    timedeltaHours schedule.intervalHours = .ok interval ↔
      schedule.IsDuration ∧ interval = schedule.step := by
  simp only [timedeltaHours, check_eq_ok, pure_eq_ok, IsDuration, step, not_lt]
  exact and_congr_right fun _ ↦ eq_comm

end FundingSchedule

theorem plus_eq_ok {time result : Datetime} {duration : ℤ} :
    time.plus duration = .ok result ↔ result.val = time.val + duration := by
  unfold Datetime.plus
  split_ifs with hrange
  · rw [Except.ok.injEq, ← Subtype.val_inj]
    exact eq_comm
  · simp only [false_iff]
    rintro hsum
    exact hrange (hsum ▸ result.property)

theorem fromTimestamp_eq_ok {seconds : ℤ} {result : Datetime} :
    Datetime.fromTimestamp seconds = .ok result ↔ result.val = seconds * 1000000 := by
  unfold Datetime.fromTimestamp
  split_ifs with hrange
  · rw [Except.ok.injEq, ← Subtype.val_inj]
    exact eq_comm
  · simp only [false_iff]
    rintro hsum
    exact hrange (hsum ▸ result.property)

/-- The least point of a grid after a time, as a time. -/
theorem isLeast_later_iff {schedule : FundingSchedule} {after result : Datetime} :
    IsLeast {time | time ∈ schedule.grid ∧ after < time} result ↔
      result.val = next schedule.anchor schedule.step after.val := by
  have hnext : IsLeast {y | y ∈ progression schedule.anchor schedule.step ∧ after.val < y}
      (next schedule.anchor schedule.step after.val) := isLeast_next schedule.step_pos after.val
  constructor
  · rintro ⟨⟨hgrid, hafter⟩, hleast⟩
    have hle := hnext.2 ⟨hgrid, hafter⟩
    have hrange : minTime ≤ next schedule.anchor schedule.step after.val ∧
        next schedule.anchor schedule.step after.val ≤ maxTime :=
      ⟨after.property.1.trans hnext.1.2.le, hle.trans result.property.2⟩
    exact le_antisymm (hleast (a := ⟨_, hrange⟩) hnext.1) hle
  · intro hresult
    refine ⟨⟨?_, ?_⟩, fun time htime ↦ ?_⟩
    · rw [FundingSchedule.grid, Set.mem_ofPred_eq, hresult]
      exact hnext.1.1
    · rw [← Subtype.coe_lt_coe, hresult]
      exact hnext.1.2
    · rw [← Subtype.coe_le_coe, hresult]
      exact hnext.2 htime

/-- The greatest point of a grid up to a time, as a time. -/
theorem isGreatest_earlier_iff {schedule : FundingSchedule} {before result : Datetime} :
    IsGreatest {time | time ∈ schedule.grid ∧ time ≤ before} result ↔
      result.val = next schedule.anchor schedule.step before.val - schedule.step := by
  have hprevious : IsGreatest {y | y ∈ progression schedule.anchor schedule.step ∧ y ≤ before.val}
      (next schedule.anchor schedule.step before.val - schedule.step) :=
    isGreatest_previous schedule.step_pos before.val
  constructor
  · rintro ⟨⟨hgrid, hbefore⟩, hgreatest⟩
    have hle := hprevious.2 ⟨hgrid, hbefore⟩
    have hrange : minTime ≤ next schedule.anchor schedule.step before.val - schedule.step ∧
        next schedule.anchor schedule.step before.val - schedule.step ≤ maxTime :=
      ⟨result.property.1.trans hle, hprevious.1.2.trans before.property.2⟩
    exact le_antisymm hle (hgreatest (a := ⟨_, hrange⟩) hprevious.1)
  · intro hresult
    refine ⟨⟨?_, ?_⟩, fun time htime ↦ ?_⟩
    · rw [FundingSchedule.grid, Set.mem_ofPred_eq, hresult]
      exact hprevious.1.1
    · rw [← Subtype.coe_le_coe, hresult]
      exact hprevious.1.2
    · rw [← Subtype.coe_le_coe, hresult]
      exact hprevious.2 htime

/-- There is a settlement after a time just if the next point of the grid is a time. -/
theorem exists_later_iff {schedule : FundingSchedule} {after : Datetime} :
    (∃ time ∈ schedule.grid, after < time) ↔
      next schedule.anchor schedule.step after.val ≤ maxTime := by
  have hnext : IsLeast {y | y ∈ progression schedule.anchor schedule.step ∧ after.val < y}
      (next schedule.anchor schedule.step after.val) := isLeast_next schedule.step_pos after.val
  constructor
  · rintro ⟨time, hgrid, hafter⟩
    exact (hnext.2 ⟨hgrid, hafter⟩).trans time.property.2
  · intro hle
    exact ⟨⟨_, after.property.1.trans hnext.1.2.le, hle⟩, hnext.1⟩

theorem exists_earlier_iff {schedule : FundingSchedule} {before : Datetime} :
    (∃ time ∈ schedule.grid, time ≤ before) ↔
      minTime ≤ next schedule.anchor schedule.step before.val - schedule.step := by
  have hprevious : IsGreatest {y | y ∈ progression schedule.anchor schedule.step ∧ y ≤ before.val}
      (next schedule.anchor schedule.step before.val - schedule.step) :=
    isGreatest_previous schedule.step_pos before.val
  constructor
  · rintro ⟨time, hgrid, hbefore⟩
    exact time.property.1.trans (hprevious.2 ⟨hgrid, hbefore⟩)
  · intro hle
    exact ⟨⟨_, hle, hprevious.1.2.trans before.property.2⟩, hprevious.1⟩

theorem exists_isLeast_later {schedule : FundingSchedule} {after : Datetime}
    (hlater : ∃ time ∈ schedule.grid, after < time) :
    ∃ result, IsLeast {time | time ∈ schedule.grid ∧ after < time} result := by
  have hmin : minTime ≤ next schedule.anchor schedule.step after.val :=
    after.property.1.trans (lt_next schedule.step_pos after.val).le
  exact ⟨⟨_, hmin, exists_later_iff.mp hlater⟩, isLeast_later_iff.mpr rfl⟩

theorem exists_isGreatest_earlier {schedule : FundingSchedule} {before : Datetime}
    (hearlier : ∃ time ∈ schedule.grid, time ≤ before) :
    ∃ result, IsGreatest {time | time ∈ schedule.grid ∧ time ≤ before} result := by
  have hmax : next schedule.anchor schedule.step before.val - schedule.step ≤ maxTime :=
    (isGreatest_previous schedule.step_pos before.val).1.2.trans before.property.2
  exact ⟨⟨_, exists_earlier_iff.mp hearlier, hmax⟩, isGreatest_earlier_iff.mpr rfl⟩

/-! ### The next and the previous settlement -/

section Laws

variable {upper : String → String} {calendar : FundingCalendar} {symbol : String}

/-- From a reported settlement the grid is entered at once: the second addition is not needed. -/
theorem plus_steps_eq_ok {candidate after result : Datetime} {step : ℤ} (hstep : 0 < step) :
    (do
      let moved ← candidate.plus (step * ((after.val - candidate.val).fdiv step + 1))
      if moved ≤ after then moved.plus step else return moved) = .ok result ↔
      result.val = next candidate.val step after.val := by
  have hmoved : candidate.val + step * ((after.val - candidate.val).fdiv step + 1) =
      next candidate.val step after.val := by
    rw [Int.fdiv_eq_ediv_of_nonneg _ hstep.le, next, mul_comm step]
  simp only [bind_eq_ok, plus_eq_ok, hmoved]
  constructor
  · rintro ⟨moved, hmoved, hresult⟩
    have hlater : ¬ moved ≤ after := by
      rw [← Subtype.coe_le_coe, hmoved, not_le]
      exact lt_next hstep after.val
    rw [if_neg hlater, pure_eq_ok] at hresult
    rw [← hresult, hmoved]
  · intro hresult
    have hlater : ¬ result ≤ after := by
      rw [← Subtype.coe_le_coe, hresult, not_le]
      exact lt_next hstep after.val
    exact ⟨result, hresult, by rw [if_neg hlater, pure_eq_ok]⟩

/-- From the epoch, whole seconds are enough to find the next point. -/
theorem epochSeconds_eq {hours after : ℤ} (hhours : 0 < hours) (hafter : 0 ≤ after) :
    ((after.tdiv 1000000).fdiv (hours * 60 * 60) + 1) * (hours * 60 * 60) * 1000000 =
      next 0 (hours * 3600000000) after := by
  have hseconds : 0 ≤ hours * 60 * 60 := by positivity
  have hquotient : after / 1000000 / (hours * 60 * 60) = after / (hours * 3600000000) := by
    rw [Int.ediv_ediv_of_nonneg (by norm_num)]
    congr 1
    ring
  rw [Int.tdiv_eq_ediv_of_nonneg hafter, Int.fdiv_eq_ediv_of_nonneg _ hseconds, hquotient, next,
    sub_zero]
  ring

theorem nextSettlement_eq_next {after result : Datetime} (hafter : 0 ≤ after.val) :
    nextSettlement upper calendar symbol after = .ok result ↔
      (calendar.schedule upper symbol).IsDuration ∧
        result.val = next (calendar.schedule upper symbol).anchor
          (calendar.schedule upper symbol).step after.val := by
  simp only [nextSettlement, bind_eq_ok, FundingSchedule.timedeltaHours_eq_ok]
  generalize calendar.schedule upper symbol = schedule
  constructor
  · rintro ⟨interval, ⟨hduration, rfl⟩, hresult⟩
    refine ⟨hduration, ?_⟩
    split at hresult
    · rename_i candidate hcandidate
      rw [FundingSchedule.anchor, hcandidate]
      exact (plus_steps_eq_ok schedule.step_pos).mp hresult
    · rename_i hcandidate
      rw [fromTimestamp_eq_ok, epochSeconds_eq schedule.interval_pos hafter] at hresult
      rw [FundingSchedule.anchor, hcandidate]
      exact hresult
  · rintro ⟨hduration, hresult⟩
    refine ⟨_, ⟨hduration, rfl⟩, ?_⟩
    rw [FundingSchedule.anchor] at hresult
    split
    · rename_i candidate hcandidate
      rw [hcandidate] at hresult
      exact (plus_steps_eq_ok schedule.step_pos).mpr hresult
    · rename_i hcandidate
      rw [hcandidate] at hresult
      rw [fromTimestamp_eq_ok, epochSeconds_eq schedule.interval_pos hafter]
      exact hresult

/-- The next settlement is the least one after the time. -/
theorem nextSettlement_eq_ok {after result : Datetime} (hafter : 0 ≤ after.val) :
    nextSettlement upper calendar symbol after = .ok result ↔
      (calendar.schedule upper symbol).IsDuration ∧
        IsLeast {time | time ∈ (calendar.schedule upper symbol).grid ∧ after < time} result := by
  rw [nextSettlement_eq_next hafter, isLeast_later_iff]

/-- The previous settlement is the greatest one up to the time, if there is also a next one. -/
theorem previousSettlement_eq_ok {before result : Datetime} (hbefore : 0 ≤ before.val) :
    previousSettlement upper calendar symbol before = .ok result ↔
      (calendar.schedule upper symbol).IsDuration ∧
        (∃ time ∈ (calendar.schedule upper symbol).grid, before < time) ∧
        IsGreatest {time | time ∈ (calendar.schedule upper symbol).grid ∧ time ≤ before}
          result := by
  simp only [previousSettlement, bind_eq_ok, FundingSchedule.timedeltaHours_eq_ok,
    nextSettlement_eq_next hbefore, plus_eq_ok, isGreatest_earlier_iff, exists_later_iff]
  generalize calendar.schedule upper symbol = schedule
  constructor
  · rintro ⟨interval, ⟨hduration, rfl⟩, later, ⟨-, hlater⟩, hresult⟩
    refine ⟨hduration, hlater ▸ later.property.2, ?_⟩
    rw [hresult, hlater, sub_eq_add_neg]
  · rintro ⟨hduration, hlater, hresult⟩
    have hmin : minTime ≤ next schedule.anchor schedule.step before.val :=
      before.property.1.trans (lt_next schedule.step_pos before.val).le
    refine ⟨_, ⟨hduration, rfl⟩, ⟨_, hmin, hlater⟩, ⟨hduration, rfl⟩, ?_⟩
    rw [hresult, sub_eq_add_neg]

/-! ### Ranges -/

/-- The loop lists the points from a settlement on, if the room is larger than their number and the
first point behind them is a time. -/
theorem collect_eq_ok {step : ℤ} (hstep : 0 < step) {stop : Datetime} {room : ℕ}
    {current : Datetime} {list : List Datetime} :
    collect step stop room current = .ok list ↔
      list.map Subtype.val = points step stop.val current.val ∧ list.length < room ∧
        current.val + list.length * step ≤ maxTime := by
  induction room generalizing current list with
  | zero => simp [collect]
  | succ room ih =>
    unfold collect
    by_cases hstop : current ≤ stop
    · rw [if_pos hstop, points_of_le hstep hstop]
      by_cases hroom : room = 0
      · rw [if_pos hroom, throw_eq_ok, false_iff]
        rintro ⟨hlist, hlength, -⟩
        have hcount : (list.map Subtype.val).length = list.length := List.length_map _
        rw [hlist, List.length_cons] at hcount
        omega
      · simp only [if_neg hroom, bind_eq_ok, plus_eq_ok, pure_eq_ok, ih]
        constructor
        · rintro ⟨later, hlater, rest, ⟨hrest, hlength, hmax⟩, rfl⟩
          refine ⟨by rw [List.map_cons, hrest, hlater], by simpa using hlength, ?_⟩
          rw [hlater] at hmax
          push_cast [List.length_cons]
          linarith
        · rintro ⟨hlist, hlength, hmax⟩
          cases list with
          | nil => cases hlist
          | cons first rest =>
            rw [List.map_cons, List.cons.injEq, Subtype.val_inj] at hlist
            obtain ⟨rfl, hrest⟩ := hlist
            push_cast [List.length_cons] at hmax
            have hnonneg : 0 ≤ (rest.length : ℤ) * step := by positivity
            have hrange : minTime ≤ first.val + step ∧ first.val + step ≤ maxTime :=
              ⟨by linarith [first.property.1], by linarith⟩
            refine ⟨⟨_, hrange⟩, rfl, rest, ⟨hrest, by simpa using hlength, ?_⟩, rfl⟩
            dsimp only
            linarith
    · rw [if_neg hstop, pure_eq_ok, points_of_lt hstep (not_le.mp hstop)]
      constructor
      · rintro rfl
        simpa using current.property.2
      · rintro ⟨hlist, -, -⟩
        exact (List.map_eq_nil_iff.mp hlist).symm

/-- The list of the points of a range, as times. -/
theorem map_val_eq_between_iff {schedule : FundingSchedule} {start stop : Datetime}
    {list : List Datetime} :
    list.map Subtype.val = between schedule.anchor schedule.step start.val stop.val ↔
      list.SortedLT ∧ ∀ time, time ∈ list ↔ time ∈ schedule.window start stop := by
  have hsorted : (list.map Subtype.val).SortedLT ↔ list.SortedLT := by
    rw [List.sortedLT_iff_pairwise, List.sortedLT_iff_pairwise, List.pairwise_map]
    rfl
  have hmem (time : Datetime) : time.val ∈ list.map Subtype.val ↔ time ∈ list :=
    List.mem_map_of_injective Subtype.val_injective
  constructor
  · intro hlist
    refine ⟨hsorted.mp (hlist ▸ sortedLT_between schedule.step_pos _ _), fun time ↦ ?_⟩
    rw [← hmem time, hlist, mem_between schedule.step_pos]
    rfl
  · rintro ⟨hlist, hwindow⟩
    refine eq_between schedule.step_pos (hsorted.mpr hlist) fun x ↦ ?_
    constructor
    · intro hx
      obtain ⟨time, htime, rfl⟩ := List.mem_map.mp hx
      exact (hwindow time).mp htime
    · rintro ⟨hx, hfrom, hto⟩
      have hrange : minTime ≤ x ∧ x ≤ maxTime :=
        ⟨start.property.1.trans hfrom.le, hto.trans stop.property.2⟩
      exact (hmem ⟨x, hrange⟩).mpr ((hwindow ⟨x, hrange⟩).mpr ⟨hx, hfrom, hto⟩)

/-- A range that is not empty is listed in order, if fewer settlements than allowed are in it and
there is one behind it. -/
theorem settlementsBetween_eq_ok {start stop : Datetime} {maxSettlements : ℤ}
    {list : List Datetime} (hstart : 0 ≤ start.val) (hrange : start < stop) :
    settlementsBetween upper calendar symbol start stop maxSettlements = .ok list ↔
      (calendar.schedule upper symbol).IsDuration ∧ (list.length : ℤ) < maxSettlements ∧
        (∃ time ∈ (calendar.schedule upper symbol).grid, stop < time) ∧ list.SortedLT ∧
        ∀ time, time ∈ list ↔ time ∈ (calendar.schedule upper symbol).window start stop := by
  rw [settlementsBetween, if_neg (not_le.mpr hrange), check_eq_ok, ← map_val_eq_between_iff,
    exists_later_iff]
  simp only [bind_eq_ok, FundingSchedule.timedeltaHours_eq_ok, nextSettlement_eq_next hstart]
  generalize calendar.schedule upper symbol = schedule
  have hbehind (hlist : list.map Subtype.val =
      between schedule.anchor schedule.step start.val stop.val) :
      next schedule.anchor schedule.step start.val + list.length * schedule.step =
        next schedule.anchor schedule.step stop.val := by
    rw [← next_add_length_between schedule.step_pos hrange.le, ← hlist, List.length_map]
  constructor
  · rintro ⟨hroom, interval, ⟨hduration, rfl⟩, current, ⟨-, hcurrent⟩, hlist⟩
    obtain ⟨hpoints, hlength, hmax⟩ := (collect_eq_ok schedule.step_pos).mp hlist
    rw [hcurrent] at hpoints hmax
    exact ⟨hduration, by omega, hbehind hpoints ▸ hmax, hpoints⟩
  · rintro ⟨hduration, hlength, hmax, hpoints⟩
    have hfirst : next schedule.anchor schedule.step start.val ≤ maxTime := by
      have hnonneg : 0 ≤ (list.length : ℤ) * schedule.step :=
        mul_nonneg (Int.natCast_nonneg _) schedule.step_pos.le
      linarith [hbehind hpoints]
    have hmin : minTime ≤ next schedule.anchor schedule.step start.val :=
      start.property.1.trans (lt_next schedule.step_pos start.val).le
    refine ⟨by omega, _, ⟨hduration, rfl⟩, ⟨_, hmin, hfirst⟩, ⟨hduration, rfl⟩, ?_⟩
    refine (collect_eq_ok schedule.step_pos).mpr ⟨hpoints, by omega, ?_⟩
    exact (hbehind hpoints).trans_le hmax

theorem ncard_window {schedule : FundingSchedule} {start stop : Datetime} {list : List Datetime}
    (hsorted : list.SortedLT)
    (hmem : ∀ time, time ∈ list ↔ time ∈ schedule.window start stop) :
    (schedule.window start stop).ncard = list.length := by
  have hset : schedule.window start stop = (list.toFinset : Set Datetime) := by
    ext time
    rw [Finset.mem_coe, List.mem_toFinset, hmem]
  rw [hset, Set.ncard_coe_finset, List.toFinset_card_of_nodup hsorted.nodup]

/-- The settlements of a range as a list. -/
theorem exists_list_window (schedule : FundingSchedule) (start stop : Datetime) :
    ∃ list : List Datetime, list.SortedLT ∧
      (∀ time, time ∈ list ↔ time ∈ schedule.window start stop) ∧
      (schedule.window start stop).ncard = list.length := by
  have hrange (x : ℤ) (hx : x ∈ between schedule.anchor schedule.step start.val stop.val) :
      minTime ≤ x ∧ x ≤ maxTime := by
    obtain ⟨-, hfrom, hto⟩ := (mem_between schedule.step_pos).mp hx
    exact ⟨start.property.1.trans hfrom.le, hto.trans stop.property.2⟩
  obtain ⟨list, hlist⟩ : ∃ list : List Datetime,
      list.map Subtype.val = between schedule.anchor schedule.step start.val stop.val :=
    CanLift.prf _ hrange
  obtain ⟨hsorted, hmem⟩ := map_val_eq_between_iff.mp hlist
  exact ⟨list, hsorted, hmem, ncard_window hsorted hmem⟩

/-- A range that is not empty is listed exactly if there are fewer settlements in it than allowed,
and one behind it. -/
theorem exists_settlementsBetween_iff {start stop : Datetime} {maxSettlements : ℤ}
    (hstart : 0 ≤ start.val) (hrange : start < stop) :
    (∃ list, settlementsBetween upper calendar symbol start stop maxSettlements = .ok list) ↔
      (calendar.schedule upper symbol).IsDuration ∧
        ((calendar.schedule upper symbol).window start stop).ncard < maxSettlements ∧
        ∃ time ∈ (calendar.schedule upper symbol).grid, stop < time := by
  obtain ⟨points, hsorted, hmem, hcount⟩ :=
    exists_list_window (calendar.schedule upper symbol) start stop
  simp only [settlementsBetween_eq_ok hstart hrange, hcount]
  constructor
  · rintro ⟨list, hduration, hlength, hlater, hlist, hwindow⟩
    have hsame : list.Perm points := (List.perm_ext_iff_of_nodup hlist.nodup hsorted.nodup).mpr
      fun time ↦ (hwindow time).trans (hmem time).symm
    exact ⟨hduration, hsame.length_eq ▸ hlength, hlater⟩
  · rintro ⟨hduration, hlength, hlater⟩
    exact ⟨points, hduration, hlength, hlater, hsorted, hmem⟩

theorem settlementsBetween_of_le {start stop : Datetime} (maxSettlements : ℤ)
    (hrange : stop ≤ start) :
    settlementsBetween upper calendar symbol start stop maxSettlements = .ok [] := by
  rw [settlementsBetween, if_pos hrange]
  rfl

/-- What is listed are the settlements of the range, in order. -/
theorem settlementsBetween_sound {start stop : Datetime} {maxSettlements : ℤ}
    {list : List Datetime} (hstart : 0 ≤ start.val)
    (hlist : settlementsBetween upper calendar symbol start stop maxSettlements = .ok list) :
    list.SortedLT ∧
      ∀ time, time ∈ list ↔ time ∈ (calendar.schedule upper symbol).window start stop := by
  rcases lt_or_ge start stop with hrange | hrange
  · exact ((settlementsBetween_eq_ok hstart hrange).mp hlist).2.2.2
  · rw [settlementsBetween_of_le _ hrange] at hlist
    cases hlist
    refine ⟨List.sortedLT_iff_pairwise.mpr List.Pairwise.nil, fun time ↦ ?_⟩
    refine iff_of_false List.not_mem_nil fun htime ↦ ?_
    exact absurd (htime.2.1.trans_le htime.2.2) (not_lt.mpr hrange)

/-- A range that was listed is listed in two parts as well. -/
theorem settlementsBetween_append {start middle stop : Datetime} {maxSettlements : ℤ}
    {list : List Datetime} (hstart : 0 ≤ start.val) (hfirst : start ≤ middle)
    (hsecond : middle ≤ stop)
    (hlist : settlementsBetween upper calendar symbol start stop maxSettlements = .ok list) :
    ∃ first second,
      settlementsBetween upper calendar symbol start middle maxSettlements = .ok first ∧
      settlementsBetween upper calendar symbol middle stop maxSettlements = .ok second ∧
      list = first ++ second := by
  rcases hfirst.eq_or_lt with rfl | hfirst
  · exact ⟨[], list, settlementsBetween_of_le _ le_rfl, hlist, rfl⟩
  rcases hsecond.eq_or_lt with rfl | hsecond
  · exact ⟨list, [], hlist, settlementsBetween_of_le _ le_rfl, (List.append_nil list).symm⟩
  have hmiddle : 0 ≤ middle.val := hstart.trans hfirst.le
  obtain ⟨hduration, hlength, ⟨later, hgrid, hlater⟩, hsorted, hmem⟩ :=
    (settlementsBetween_eq_ok hstart (hfirst.trans hsecond)).mp hlist
  obtain ⟨first, hfirstSorted, hfirstMem, -⟩ :=
    exists_list_window (calendar.schedule upper symbol) start middle
  obtain ⟨second, hsecondSorted, hsecondMem, -⟩ :=
    exists_list_window (calendar.schedule upper symbol) middle stop
  -- The lists are those of the progression, which is split at the middle.
  have hsplit : list = first ++ second := by
    refine List.map_injective_iff.mpr Subtype.val_injective ?_
    rw [List.map_append, map_val_eq_between_iff.mpr ⟨hfirstSorted, hfirstMem⟩,
      map_val_eq_between_iff.mpr ⟨hsecondSorted, hsecondMem⟩,
      map_val_eq_between_iff.mpr ⟨hsorted, hmem⟩,
      between_append (calendar.schedule upper symbol).step_pos hfirst.le hsecond.le]
  have hcounts : list.length = first.length + second.length := by
    rw [hsplit, List.length_append]
  refine ⟨first, second, ?_, ?_, hsplit⟩
  · exact (settlementsBetween_eq_ok hstart hfirst).mpr
      ⟨hduration, by omega, ⟨later, hgrid, hsecond.trans hlater⟩, hfirstSorted, hfirstMem⟩
  · exact (settlementsBetween_eq_ok hmiddle hsecond).mpr
      ⟨hduration, by omega, ⟨later, hgrid, hlater⟩, hsecondSorted, hsecondMem⟩

end Laws

/-! ### The laws of the calendar -/

/-- What a calendar should say about a time and about the range from it to another one. -/
structure CalendarLaws (upper : String → String) (calendar : FundingCalendar) (symbol : String)
    (start stop : Datetime) (maxSettlements : ℤ) : Prop where
  next : ∃ result, nextSettlement upper calendar symbol start = .ok result ∧
    IsLeast {time | time ∈ (calendar.schedule upper symbol).grid ∧ start < time} result
  previous : ∃ result, previousSettlement upper calendar symbol start = .ok result ∧
    IsGreatest {time | time ∈ (calendar.schedule upper symbol).grid ∧ time ≤ start} result
  returns : ∀ list, settlementsBetween upper calendar symbol start stop maxSettlements = .ok list →
    list.SortedLT ∧ ∀ time, time ∈ list ↔ time ∈ (calendar.schedule upper symbol).window start stop
  raises : (∃ e, settlementsBetween upper calendar symbol start stop maxSettlements = .error e) ↔
    maxSettlements < ((calendar.schedule upper symbol).window start stop).ncard
  additive : ∀ middle, start ≤ middle → middle ≤ stop → ∀ list,
    settlementsBetween upper calendar symbol start stop maxSettlements = .ok list →
      ∃ first second,
        settlementsBetween upper calendar symbol start middle maxSettlements = .ok first ∧
        settlementsBetween upper calendar symbol middle stop maxSettlements = .ok second ∧
        list = first ++ second

/-- The range is refused just if too many settlements are in it. -/
def RefusedExactly (schedule : FundingSchedule) (start stop : Datetime) (maxSettlements : ℤ) :
    Prop :=
  if start < stop then
    maxSettlements < (schedule.window start stop).ncard ∨
      ((schedule.window start stop).ncard < maxSettlements ∧ ∃ time ∈ schedule.grid, stop < time)
  else 0 ≤ maxSettlements

theorem raises_iff {upper : String → String} {calendar : FundingCalendar} {symbol : String}
    {start stop : Datetime} {maxSettlements : ℤ} (hstart : 0 ≤ start.val)
    (hduration : (calendar.schedule upper symbol).IsDuration) :
    ((∃ e, settlementsBetween upper calendar symbol start stop maxSettlements = .error e) ↔
      maxSettlements < ((calendar.schedule upper symbol).window start stop).ncard) ↔
      RefusedExactly (calendar.schedule upper symbol) start stop maxSettlements := by
  have herror : (∃ e, settlementsBetween upper calendar symbol start stop maxSettlements =
        .error e) ↔
      ¬ ∃ list, settlementsBetween upper calendar symbol start stop maxSettlements = .ok list := by
    cases settlementsBetween upper calendar symbol start stop maxSettlements <;> simp
  rw [herror, RefusedExactly]
  by_cases hrange : start < stop
  · rw [if_pos hrange, exists_settlementsBetween_iff hstart hrange]
    by_cases hlater : ∃ time ∈ (calendar.schedule upper symbol).grid, stop < time
    · simp only [hduration, hlater, true_and, and_true]
      omega
    · simp only [hlater, and_false, or_false, not_false_eq_true, true_iff]
  · have hempty : (calendar.schedule upper symbol).window start stop = ∅ :=
      Set.eq_empty_of_forall_notMem fun time htime ↦ hrange (htime.2.1.trans_le htime.2.2)
    rw [if_neg hrange, settlementsBetween_of_le _ (not_lt.mp hrange), hempty, Set.ncard_empty]
    simp

/-- The laws hold exactly if the times before and after the start are times that Python has, and
the range is refused just if too many settlements are in it. -/
theorem calendarLaws_iff (upper : String → String) (calendar : FundingCalendar) (symbol : String)
    (start stop : Datetime) (maxSettlements : ℤ) (hstart : 0 ≤ start.val) :
    CalendarLaws upper calendar symbol start stop maxSettlements ↔
      (calendar.schedule upper symbol).IsDuration ∧
        (∃ time ∈ (calendar.schedule upper symbol).grid, start < time) ∧
        (∃ time ∈ (calendar.schedule upper symbol).grid, time ≤ start) ∧
        RefusedExactly (calendar.schedule upper symbol) start stop maxSettlements := by
  constructor
  · intro hlaws
    obtain ⟨later, hlater, hleast⟩ := hlaws.next
    obtain ⟨earlier, -, hgreatest⟩ := hlaws.previous
    have hduration := ((nextSettlement_eq_ok hstart).mp hlater).1
    exact ⟨hduration, ⟨later, hleast.1⟩, ⟨earlier, hgreatest.1⟩,
      (raises_iff hstart hduration).mp hlaws.raises⟩
  · rintro ⟨hduration, hlater, hearlier, hrefused⟩
    obtain ⟨next, hleast⟩ := exists_isLeast_later hlater
    obtain ⟨previous, hgreatest⟩ := exists_isGreatest_earlier hearlier
    refine ⟨⟨next, (nextSettlement_eq_ok hstart).mpr ⟨hduration, hleast⟩, hleast⟩,
      ⟨previous, (previousSettlement_eq_ok hstart).mpr ⟨hduration, hlater, hgreatest⟩,
        hgreatest⟩, fun list hlist ↦ settlementsBetween_sound hstart hlist,
      (raises_iff hstart hduration).mpr hrefused, ?_⟩
    intro middle hfirst hsecond list hlist
    exact settlementsBetween_append hstart hfirst hsecond hlist

theorem ncard_window_eightHourly :
    ((eightHourly.schedule id "BTCUSDT").window (hour 0 (by omega)) (hour 8 (by omega))).ncard =
      1 := by
  have hlist : settlementsBetween id eightHourly "BTCUSDT" (hour 0 (by omega)) (hour 8 (by omega))
      2 = .ok [hour 8 (by omega)] := by decide
  obtain ⟨hsorted, hmem⟩ := settlementsBetween_sound (by decide) hlist
  exact ncard_window hsorted hmem

theorem calendarLaws_iff_eightHourly :
    CalendarLaws id eightHourly "BTCUSDT" (hour 0 (by omega)) (hour 8 (by omega)) 2 := by
  have hduration : (8 : ℤ) ≤ 23999999999 := by omega
  refine (calendarLaws_iff id eightHourly "BTCUSDT" _ _ 2 (by decide)).mpr ⟨hduration,
    ⟨hour 8 (by omega), ⟨1, by decide⟩, by decide⟩, ⟨hour 0 (by omega), ⟨0, by decide⟩, le_rfl⟩, ?_⟩
  rw [RefusedExactly, if_pos (by decide), ncard_window_eightHourly]
  exact Or.inr ⟨by decide, hour 16 (by omega), ⟨2, by decide⟩, by decide⟩

/-- A range with one settlement is refused although one is allowed. -/
theorem full_range_refused :
    FundingCalendar.create 8 = .ok eightHourly ∧
      settlementsBetween id eightHourly "BTCUSDT" (hour 0 (by omega)) (hour 8 (by omega)) 1 =
        .error "settlement range exceeds safety limit" ∧
      ((eightHourly.schedule id "BTCUSDT").window (hour 0 (by omega)) (hour 8 (by omega))).ncard =
        1 :=
  ⟨rfl, by decide, ncard_window_eightHourly⟩

end Bongus.Funding
