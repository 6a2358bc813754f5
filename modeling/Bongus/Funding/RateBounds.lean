import Bongus.Funding.Calendar
import Bongus.Lib.Runs

/-!
# The bounds of the funding rate

`update_funding_info` of `bongus/market_data/funding_calendar.py` stores the interval, the cap and
the floor of a row one after the other and compares the bounds when they are stored. A row whose
floor is above its cap raises and leaves both (`inverted_bounds_stored`), so that `clamp_rate` then
returns a rate above the cap.

The bounds are in order in every state, and a row that raises changes nothing of its symbol, exactly
if each row that raises has given only what was stored already in front of the field at which it
raises (`bounds_kept_iff`).
-/

set_option autoImplicit false
set_option relaxedAutoImplicit false

namespace Bongus.Funding

open Lib.Fallible Lib.Runs

/-- `clamp_rate` for the schedule of a symbol. -/
def FundingSchedule.clampRate (schedule : FundingSchedule) (rate : ℚ) : ℚ :=
  let capped := match schedule.rateCap with
    | some cap => min rate cap
    | none => rate
  match schedule.rateFloor with
  | some floor => max capped floor
  | none => capped

inductive Update where
  | fundingInfo (rows : List FundingInfoRow) (observedAt : Datetime)
  | premiumIndex (row : PremiumIndexRow) (observedAt : Datetime)

/-- What a call leaves of the calendar, whether it raises or not. -/
def afterUpdate (upper : String → String) (calendar : FundingCalendar) :
    Update → FundingCalendar
  | .fundingInfo rows observedAt => (calendar.updateFundingInfo upper observedAt rows).2
  | .premiumIndex row observedAt => (calendar.updatePremiumIndex upper observedAt row).2

/-! ### One row -/

namespace FundingSchedule

/-- The interval, the cap and the floor. -/
def terms (schedule : FundingSchedule) : ℤ × Option ℚ × Option ℚ :=
  (schedule.intervalHours, schedule.rateCap, schedule.rateFloor)

/-- What a row gives in a field, if it can be read, is what is stored, and so is the rest. -/
def Repeats {α : Type} (field : Option (Except String α)) (stored : α → Prop) (rest : Prop) :
    Prop :=
  match field with
  | none => rest
  | some (.error _) => True
  | some (.ok value) => stored value ∧ rest

/-- In front of the field at which it raises, if it does, a row gives what is stored. -/
def Unchanged (schedule : FundingSchedule) (symbol : String) (row : FundingInfoRow) : Prop :=
  Repeats (row.interval symbol) (fun interval ↦ interval.val = schedule.intervalHours)
    (Repeats row.adjustedFundingRateCap (fun cap ↦ some cap = schedule.rateCap)
      (Repeats row.adjustedFundingRateFloor (fun floor ↦ some floor = schedule.rateFloor) True))

end FundingSchedule

open FundingSchedule (Repeats)

section Rows

variable {symbol : String} {row : FundingInfoRow} {observedAt : Datetime}

/-- What no assignment changes is kept. -/
theorem perform_keeps {ε σ β : Type} (view : σ → β) {assignments : List (σ → Except ε σ)}
    (hkeeps : ∀ assignment ∈ assignments, ∀ state next, assignment state = .ok next →
      view next = view state) (state : σ) :
    view (perform assignments state).2 = view state := by
  induction assignments generalizing state with
  | nil => rfl
  | cons assignment rest ih =>
    rw [perform]
    split
    · rfl
    · rename_i next hnext
      rw [ih (fun other hother ↦ hkeeps other (List.mem_cons_of_mem _ hother)) next]
      exact hkeeps assignment List.mem_cons_self state next hnext

theorem setField_keeps {α β : Type} (view : FundingSchedule → β)
    {field : Option (Except String α)} {set : FundingSchedule → α → FundingSchedule}
    {schedule next : FundingSchedule} (hnext : setField field set schedule = .ok next)
    (hset : ∀ schedule value, view (set schedule value) = view schedule) :
    view next = view schedule := by
  unfold setField at hnext
  split at hnext
  · cases hnext
    rfl
  · cases hnext
  · cases hnext
    exact hset schedule _

theorem checkBounds_eq_ok {schedule next : FundingSchedule} :
    checkBounds symbol schedule = .ok next ↔ schedule.inverted = false ∧ schedule = next := by
  simp [checkBounds]

/-- A field is set first and kept by the rest: the terms stay as they are exactly if the field
repeats what is stored, and the rest leaves the terms as they are. -/
theorem terms_setField {α β : Type} (view : FundingSchedule → β) (embed : α → β)
    {field : Option (Except String α)} {set : FundingSchedule → α → FundingSchedule}
    {rest : List (FundingSchedule → Except String FundingSchedule)} {schedule : FundingSchedule}
    (hterms : ∀ first second : FundingSchedule, first.terms = second.terms →
      view first = view second)
    (hset : ∀ value, view (set schedule value) = embed value)
    (hsame : ∀ value, embed value = view schedule → set schedule value = schedule)
    (hrest : ∀ state, view (perform rest state).2 = view state) :
    (perform (setField field set :: rest) schedule).2.terms = schedule.terms ↔
      Repeats field (fun value ↦ embed value = view schedule)
        ((perform rest schedule).2.terms = schedule.terms) := by
  rcases field with _ | e | value
  · rfl
  · exact iff_of_true rfl trivial
  · change (perform rest (set schedule value)).2.terms = schedule.terms ↔ _
    constructor
    · intro hkept
      have hvalue : embed value = view schedule := by
        rw [← hset value, ← hrest (set schedule value)]
        exact hterms _ _ hkept
      refine ⟨hvalue, ?_⟩
      rwa [hsame value hvalue] at hkept
    · rintro ⟨hvalue, hkept⟩
      rwa [hsame value hvalue]

/-- The last assignments set none of the terms. -/
theorem view_of_checked {β : Type} (view : FundingSchedule → β)
    (hstamp : ∀ schedule : FundingSchedule, view { schedule with updatedAt := some observedAt } =
      view schedule)
    {assignment : FundingSchedule → Except String FundingSchedule}
    (hassignment : assignment ∈ [checkBounds symbol, stamp observedAt])
    {schedule next : FundingSchedule} (hnext : assignment schedule = .ok next) :
    view next = view schedule := by
  rw [List.mem_pair] at hassignment
  rcases hassignment with rfl | rfl
  · rw [(checkBounds_eq_ok.mp hnext).2]
  · cases hnext
    exact hstamp schedule

/-- A row leaves the terms as they are exactly if it repeats them up to where it raises. -/
theorem terms_perform_iff {schedule : FundingSchedule} :
    (perform (assignments symbol row observedAt) schedule).2.terms = schedule.terms ↔
      schedule.Unchanged symbol row := by
  have hchecked (state : FundingSchedule) :
      (perform [checkBounds symbol, stamp observedAt] state).2.terms = state.terms :=
    perform_keeps _ (fun _ hassignment _ _ hnext ↦
      view_of_checked _ (fun _ ↦ rfl) hassignment hnext) state
  have hfloor (state : FundingSchedule) :
      (perform [checkBounds symbol, stamp observedAt] state).2.rateFloor = state.rateFloor :=
    congrArg (fun terms ↦ terms.2.2) (hchecked state)
  have hcap (state : FundingSchedule) :
      (perform [setFloor row, checkBounds symbol, stamp observedAt] state).2.rateCap =
        state.rateCap := by
    refine perform_keeps FundingSchedule.rateCap (fun assignment hassignment _ _ hnext ↦ ?_) state
    rcases List.mem_cons.mp hassignment with rfl | hassignment
    · exact setField_keeps _ hnext fun _ _ ↦ rfl
    · exact view_of_checked _ (fun _ ↦ rfl) hassignment hnext
  have hinterval (state : FundingSchedule) :
      (perform [setCap row, setFloor row, checkBounds symbol, stamp observedAt]
        state).2.intervalHours = state.intervalHours := by
    refine perform_keeps FundingSchedule.intervalHours
      (fun assignment hassignment _ _ hnext ↦ ?_) state
    rcases List.mem_cons.mp hassignment with rfl | hassignment
    · exact setField_keeps _ hnext fun _ _ ↦ rfl
    rcases List.mem_cons.mp hassignment with rfl | hassignment
    · exact setField_keeps _ hnext fun _ _ ↦ rfl
    · exact view_of_checked _ (fun _ ↦ rfl) hassignment hnext
  rw [assignments, setInterval, terms_setField FundingSchedule.intervalHours Subtype.val
      (fun _ _ hterms ↦ congrArg Prod.fst hterms) (fun _ ↦ rfl) (fun value hvalue ↦ ?_) hinterval,
    setCap, terms_setField FundingSchedule.rateCap some
      (fun _ _ hterms ↦ congrArg (fun terms ↦ terms.2.1) hterms) (fun _ ↦ rfl)
      (fun value hvalue ↦ ?_) hcap,
    setFloor, terms_setField FundingSchedule.rateFloor some
      (fun _ _ hterms ↦ congrArg (fun terms ↦ terms.2.2) hterms) (fun _ ↦ rfl)
      (fun value hvalue ↦ ?_) hfloor,
    eq_true (hchecked schedule)]
  · rfl
  all_goals cases schedule; simp_all

theorem perform_append {ε σ : Type} {first second : List (σ → Except ε σ)} {state final : σ}
    (hcompletes : perform (first ++ second) state = (none, final)) :
    ∃ between, perform second between = (none, final) := by
  induction first generalizing state with
  | nil => exact ⟨state, hcompletes⟩
  | cons assignment rest ih =>
    rw [List.cons_append, perform] at hcompletes
    split at hcompletes
    · cases hcompletes
    · exact ih hcompletes

/-- A row that does not raise leaves bounds that are in order. -/
theorem inverted_of_completes {schedule next : FundingSchedule}
    (hcompletes : perform (assignments symbol row observedAt) schedule = (none, next)) :
    next.inverted = false := by
  have hsplit : assignments symbol row observedAt =
      [setInterval symbol row, setCap row, setFloor row] ++
        [checkBounds symbol, stamp observedAt] := rfl
  rw [hsplit] at hcompletes
  obtain ⟨between, hchecked⟩ := perform_append hcompletes
  rw [perform] at hchecked
  split at hchecked
  · cases hchecked
  · rename_i checked hcheck
    obtain ⟨horder, rfl⟩ := checkBounds_eq_ok.mp hcheck
    cases hchecked
    exact horder

theorem terms_premiumIndex {row : PremiumIndexRow} (schedule : FundingSchedule) :
    (perform [setNextTime row observedAt, stamp observedAt] schedule).2.terms = schedule.terms := by
  refine perform_keeps _ (fun assignment hassignment state next hnext ↦ ?_) schedule
  rw [List.mem_pair] at hassignment
  rcases hassignment with rfl | rfl
  · unfold setNextTime at hnext
    split at hnext
    · cases hnext
      rfl
    · simp only [bind_eq_ok] at hnext
      obtain ⟨nextTime, -, earliest, -, hnext⟩ := hnext
      split at hnext <;> cases hnext <;> rfl
  · cases hnext
    rfl

/-- Whether the bounds are in order depends on the terms only. -/
theorem inverted_congr {first second : FundingSchedule} (hterms : first.terms = second.terms) :
    first.inverted = second.inverted := by
  have hcap : first.rateCap = second.rateCap := congrArg (fun terms ↦ terms.2.1) hterms
  have hfloor : first.rateFloor = second.rateFloor := congrArg (fun terms ↦ terms.2.2) hterms
  rw [FundingSchedule.inverted, FundingSchedule.inverted, hcap, hfloor]

theorem clampRate_between {schedule : FundingSchedule} (horder : schedule.inverted = false)
    {cap floor : ℚ} (hcap : schedule.rateCap = some cap) (hfloor : schedule.rateFloor = some floor)
    (rate : ℚ) : floor ≤ schedule.clampRate rate ∧ schedule.clampRate rate ≤ cap := by
  have hbounds : floor ≤ cap := by
    simpa [FundingSchedule.inverted, hcap, hfloor] using horder
  rw [FundingSchedule.clampRate, hcap, hfloor]
  exact ⟨le_max_right _ _, max_le (min_le_right _ _) hbounds⟩

end Rows

/-! ### Calls -/

section Calls

variable (upper : String → String)

/-- The bounds of every symbol are in order, and a rate is clamped between them. -/
def BoundsInOrder (calendar : FundingCalendar) : Prop :=
  ∀ symbol cap floor, (calendar.schedule upper symbol).rateCap = some cap →
    (calendar.schedule upper symbol).rateFloor = some floor →
      floor ≤ cap ∧ ∀ rate, floor ≤ (calendar.schedule upper symbol).clampRate rate ∧
        (calendar.schedule upper symbol).clampRate rate ≤ cap

/-- A call comes to a row and raises there, with the calendar in front of the row. -/
def RaisesAt (calendar : FundingCalendar) (rows : List FundingInfoRow) (observedAt : Datetime)
    (between : FundingCalendar) (row : FundingInfoRow) : Prop :=
  ∃ before after, rows = before ++ row :: after ∧
    calendar.updateFundingInfo upper observedAt before = (none, between) ∧
    (between.updateRow upper observedAt row).1.isSome

/-- An update that raises for a symbol leaves its interval, cap and floor as they were. -/
def RaisesUnchanged (calendar : FundingCalendar) : Update → Prop
  | .premiumIndex row observedAt =>
    (calendar.updatePremiumIndex upper observedAt row).1.isSome →
      ((calendar.updatePremiumIndex upper observedAt row).2.schedule upper
        (upper row.symbol)).terms = (calendar.schedule upper (upper row.symbol)).terms
  | .fundingInfo rows observedAt =>
    ∀ between row, RaisesAt upper calendar rows observedAt between row →
      ((between.updateRow upper observedAt row).2.schedule upper (upper row.symbol)).terms =
        (between.schedule upper (upper row.symbol)).terms

/-- In front of the field at which it raises, a row gives what is stored. -/
def RaisesRepeating (calendar : FundingCalendar) : Update → Prop
  | .premiumIndex _ _ => True
  | .fundingInfo rows observedAt =>
    ∀ between row, RaisesAt upper calendar rows observedAt between row →
      (between.schedule upper (upper row.symbol)).Unchanged (upper row.symbol) row

variable {upper}

theorem schedule_modify (calendar : FundingCalendar) (symbol : String)
    (change : FundingSchedule → Option String × FundingSchedule) :
    (calendar.modify upper symbol change).2.schedule upper symbol =
      (change (calendar.schedule upper symbol)).2 :=
  Function.update_self ..

/-- A property that a change keeps, for the schedules of all symbols. -/
theorem schedules_modify (property : FundingSchedule → Prop) {calendar : FundingCalendar}
    {symbol : String} {change : FundingSchedule → Option String × FundingSchedule}
    (hall : ∀ key, property (calendar.schedules key))
    (hchange : property (change (calendar.schedule upper symbol)).2) (key : String) :
    property ((calendar.modify upper symbol change).2.schedules key) := by
  change property (Function.update calendar.schedules (upper symbol) _ key)
  rcases eq_or_ne key (upper symbol) with rfl | hkey
  · rwa [Function.update_self]
  · rw [Function.update_of_ne hkey]
    exact hall key

/-- A row that raises leaves the terms exactly if it repeats them. -/
theorem terms_updateRow_iff {calendar : FundingCalendar} {row : FundingInfoRow}
    {observedAt : Datetime} (hraises : (calendar.updateRow upper observedAt row).1.isSome) :
    ((calendar.updateRow upper observedAt row).2.schedule upper (upper row.symbol)).terms =
        (calendar.schedule upper (upper row.symbol)).terms ↔
      (calendar.schedule upper (upper row.symbol)).Unchanged (upper row.symbol) row := by
  have hsymbol : upper row.symbol ≠ "" := by
    intro hempty
    simp [FundingCalendar.updateRow, hempty] at hraises
  simp only [FundingCalendar.updateRow, if_neg hsymbol, schedule_modify]
  exact terms_perform_iff

theorem raisesUnchanged_iff {calendar : FundingCalendar} {update : Update} :
    RaisesUnchanged upper calendar update ↔ RaisesRepeating upper calendar update := by
  cases update with
  | premiumIndex row observedAt =>
    refine iff_of_true (fun hraises ↦ ?_) trivial
    have hsymbol : upper row.symbol ≠ "" := by
      intro hempty
      simp [FundingCalendar.updatePremiumIndex, hempty] at hraises
    simp only [FundingCalendar.updatePremiumIndex, if_neg hsymbol, schedule_modify]
    exact terms_premiumIndex _
  | fundingInfo rows observedAt =>
    refine forall₃_congr fun between row hraises ↦ ?_
    obtain ⟨-, -, -, -, hrow⟩ := hraises
    exact terms_updateRow_iff hrow

/-- A row keeps the bounds in order, if it repeats what is stored up to where it raises. -/
theorem inverted_updateRow {calendar : FundingCalendar} {row : FundingInfoRow}
    {observedAt : Datetime} (horder : ∀ key, (calendar.schedules key).inverted = false)
    (hrepeats : (calendar.updateRow upper observedAt row).1.isSome →
      (calendar.schedule upper (upper row.symbol)).Unchanged (upper row.symbol) row)
    (key : String) :
    ((calendar.updateRow upper observedAt row).2.schedules key).inverted = false := by
  by_cases hsymbol : upper row.symbol = ""
  · rw [FundingCalendar.updateRow, if_pos hsymbol]
    exact horder key
  rw [FundingCalendar.updateRow, if_neg hsymbol]
  refine schedules_modify (fun schedule ↦ schedule.inverted = false) horder ?_ key
  cases hresult : perform (assignments (upper row.symbol) row observedAt)
      (calendar.schedule upper (upper row.symbol)) with
  | mk raised next =>
    cases raised with
    | none => exact inverted_of_completes hresult
    | some e =>
      have hraises : (calendar.updateRow upper observedAt row).1.isSome := by
        rw [FundingCalendar.updateRow, if_neg hsymbol, FundingCalendar.modify, hresult]
        rfl
      have hterms : (perform (assignments (upper row.symbol) row observedAt)
          (calendar.schedule upper (upper row.symbol))).2.terms = _ :=
        terms_perform_iff.mpr (hrepeats hraises)
      rw [hresult] at hterms
      rw [inverted_congr hterms]
      exact horder _

theorem inverted_updateFundingInfo {calendar : FundingCalendar} {rows : List FundingInfoRow}
    {observedAt : Datetime} (horder : ∀ key, (calendar.schedules key).inverted = false)
    (hrepeats : RaisesRepeating upper calendar (.fundingInfo rows observedAt)) (key : String) :
    ((calendar.updateFundingInfo upper observedAt rows).2.schedules key).inverted = false := by
  induction rows generalizing calendar with
  | nil => exact horder key
  | cons row rest ih =>
    have hrow := inverted_updateRow horder fun hraises ↦
      hrepeats calendar row ⟨[], rest, rfl, rfl, hraises⟩
    rw [FundingCalendar.updateFundingInfo]
    split
    · rename_i e next hnext
      rw [hnext] at hrow
      exact hrow key
    · rename_i next hnext
      rw [hnext] at hrow
      refine ih hrow fun between later hlater ↦ ?_
      obtain ⟨before, after, rfl, hbefore, hraises⟩ := hlater
      refine hrepeats between later ⟨row :: before, after, rfl, ?_, hraises⟩
      rw [FundingCalendar.updateFundingInfo, hnext]
      exact hbefore

theorem inverted_afterUpdate {calendar : FundingCalendar} {update : Update}
    (horder : ∀ key, (calendar.schedules key).inverted = false)
    (hrepeats : RaisesRepeating upper calendar update) (key : String) :
    ((afterUpdate upper calendar update).schedules key).inverted = false := by
  cases update with
  | fundingInfo rows observedAt => exact inverted_updateFundingInfo horder hrepeats key
  | premiumIndex row observedAt =>
    rw [afterUpdate, FundingCalendar.updatePremiumIndex]
    split
    · exact horder key
    · refine schedules_modify (fun schedule ↦ schedule.inverted = false) horder ?_ key
      rw [inverted_congr (terms_premiumIndex _)]
      exact horder _

theorem boundsInOrder_of_inverted {calendar : FundingCalendar}
    (horder : ∀ key, (calendar.schedules key).inverted = false) : BoundsInOrder upper calendar := by
  intro symbol cap floor hcap hfloor
  have hsymbol : (calendar.schedule upper symbol).inverted = false := horder _
  refine ⟨?_, clampRate_between hsymbol hcap hfloor⟩
  simpa [FundingSchedule.inverted, hcap, hfloor] using hsymbol

/-- The bounds stay in order and a row that raises changes nothing of its symbol, exactly if each
row that raises repeats what is stored up to the field at which it raises. -/
theorem bounds_kept_iff (upper : String → String) {defaultIntervalHours : ℤ}
    {start : FundingCalendar} (hstart : FundingCalendar.create defaultIntervalHours = .ok start)
    (updates : List Update) :
    ((∀ before, before <+: updates → BoundsInOrder upper (run (afterUpdate upper) start before)) ∧
        Along (afterUpdate upper) (RaisesUnchanged upper) start updates) ↔
      Along (afterUpdate upper) (RaisesRepeating upper) start updates := by
  have hfresh (key : String) : (start.schedules key).inverted = false := by
    unfold FundingCalendar.create at hstart
    split at hstart
    · cases hstart
      rfl
    · cases hstart
  have hsame : Along (afterUpdate upper) (RaisesUnchanged upper) start updates ↔
      Along (afterUpdate upper) (RaisesRepeating upper) start updates := by
    simp only [along_iff, raisesUnchanged_iff]
  constructor
  · rintro ⟨-, hunchanged⟩
    exact hsame.mp hunchanged
  · intro hrepeating
    refine ⟨?_, hsame.mpr hrepeating⟩
    rintro before ⟨after, rfl⟩
    refine boundsInOrder_of_inverted ?_
    exact invariant_run_of_along (fun calendar : FundingCalendar ↦
      ∀ key, (calendar.schedules key).inverted = false) hfresh
      (fun _ _ horder hallowed ↦ inverted_afterUpdate horder hallowed)
      ((along_append _ _ _).mp hrepeating).1

theorem raisesRepeating_single {calendar : FundingCalendar} {row : FundingInfoRow}
    {observedAt : Datetime} (hrepeats : (calendar.updateRow upper observedAt row).1.isSome →
      (calendar.schedule upper (upper row.symbol)).Unchanged (upper row.symbol) row) :
    RaisesRepeating upper calendar (.fundingInfo [row] observedAt) := by
  rintro between later ⟨before, after, hsplit, hbefore, hraises⟩
  cases before with
  | nil =>
    cases hsplit
    cases hbefore
    exact hrepeats hraises
  | cons first rest =>
    have hnone : rest ++ later :: after = [] := (List.cons.inj hsplit).2.symm
    simp at hnone

end Calls

/-- A row with both bounds, and one with an interval that is not accepted. -/
def boundsRow : FundingInfoRow where
  symbol := "BTCUSDT"
  adjustedFundingRateCap := some (.ok 1)
  adjustedFundingRateFloor := some (.ok (-1))

def longIntervalRow : FundingInfoRow where
  symbol := "BTCUSDT"
  fundingIntervalHours := some (.ok 25)
  adjustedFundingRateCap := some (.ok (-2))

theorem bounds_kept_iff_refused :
    BoundsInOrder id (run (afterUpdate id) eightHourly
      [.fundingInfo [boundsRow] (hour 0 (Nat.zero_le 24)),
        .fundingInfo [longIntervalRow] (hour 1 (Nat.le_add_left 1 23))]) := by
  have hfresh : FundingCalendar.create 8 = .ok eightHourly := rfl
  refine ((bounds_kept_iff id hfresh _).mpr ?_).1 _ (List.prefix_refl _)
  refine ⟨raisesRepeating_single fun hraises ↦ absurd hraises (by decide),
    raisesRepeating_single fun _ ↦ ?_, trivial⟩
  trivial

def invertedRow : FundingInfoRow where
  symbol := "BTCUSDT"
  adjustedFundingRateCap := some (.ok 1)
  adjustedFundingRateFloor := some (.ok 2)

/-- A row that is refused for its bounds leaves them, and a rate is then clamped above the cap. -/
theorem inverted_bounds_stored :
    (eightHourly.updateFundingInfo id (hour 0 (Nat.zero_le 24)) [invertedRow]).1 =
        some "funding floor exceeds cap for BTCUSDT" ∧
      ((eightHourly.updateFundingInfo id (hour 0 (Nat.zero_le 24)) [invertedRow]).2.schedule id
        "BTCUSDT").terms = (8, some 1, some 2) ∧
      ((eightHourly.updateFundingInfo id (hour 0 (Nat.zero_le 24)) [invertedRow]).2.schedule id
        "BTCUSDT").clampRate 0 = 2 ∧
      (eightHourly.schedule id "BTCUSDT").terms = (8, none, none) := by
  decide

end Bongus.Funding
