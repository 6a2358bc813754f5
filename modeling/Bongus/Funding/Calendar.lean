import Bongus.Lib.Fallible
import Mathlib.Algebra.Order.Field.Rat
import Mathlib.Data.Rat.Cast.Order

/-!
# The funding calendar

`bongus/market_data/funding_calendar.py`: for each perpetual symbol the calendar keeps the interval
between two settlements, the bounds of the funding rate and the time of the next settlement that the
exchange reported.

A row of the exchange sets the fields of a schedule one after the other (`perform`), so that a row
that raises leaves what was set before. A rate is a finite double and is given by its value. A field
that is missing or empty is `none`, and one that cannot be read is the error that reading it raises.
Symbols that were never named have the default schedule: that a read also stores it is only seen in
the snapshot of the calendar, which is left out.
-/

set_option autoImplicit false
set_option relaxedAutoImplicit false

namespace Bongus.Funding

open Lib.Fallible

/-! ### Times -/

def minTime : ℤ := -62135596800 * 1000000

def maxTime : ℤ := 253402300800 * 1000000 - 1

/-- A `datetime` in UTC: the microseconds since the epoch, in the years 1 to 9999. -/
abbrev Datetime := {time : ℤ // minTime ≤ time ∧ time ≤ maxTime}

instance (first second : Datetime) : Decidable (first ≤ second) :=
  inferInstanceAs (Decidable (first.val ≤ second.val))

instance (first second : Datetime) : Decidable (first < second) :=
  inferInstanceAs (Decidable (first.val < second.val))

/-- `time + duration` -/
def Datetime.plus (time : Datetime) (duration : ℤ) : Except String Datetime :=
  if hrange : minTime ≤ time + duration ∧ time + duration ≤ maxTime then .ok ⟨_, hrange⟩
  else throw "date value out of range"

/-- `datetime.fromtimestamp(seconds, tz=UTC)` -/
def Datetime.fromTimestamp (seconds : ℤ) : Except String Datetime :=
  if hrange : minTime ≤ seconds * 1000000 ∧ seconds * 1000000 ≤ maxTime then .ok ⟨_, hrange⟩
  else throw "year is out of range"

/-- `timedelta(hours=hours)` -/
def timedeltaHours (hours : ℤ) : Except String ℤ :=
  if 23999999999 < hours then throw "days must have magnitude <= 999999999"
  else return hours * 3600000000

/-! ### Schedules -/

structure FundingSchedule where
  intervalHours : ℤ := 8
  rateCap : Option ℚ := none
  rateFloor : Option ℚ := none
  nextFundingTime : Option Datetime := none
  updatedAt : Option Datetime := none
  interval_pos : 0 < intervalHours
deriving DecidableEq

structure FundingCalendar where
  schedules : String → FundingSchedule

/-- `FundingCalendar(default_interval_hours)` -/
def FundingCalendar.create (defaultIntervalHours : ℤ) : Except String FundingCalendar :=
  if hpos : 0 < defaultIntervalHours then
    return { schedules := fun _ ↦ { intervalHours := defaultIntervalHours, interval_pos := hpos } }
  else throw "default funding interval must be positive"

structure FundingInfoRow where
  symbol : String
  fundingIntervalHours : Option (Except String ℤ) := none
  adjustedFundingRateCap : Option (Except String ℚ) := none
  adjustedFundingRateFloor : Option (Except String ℚ) := none

structure PremiumIndexRow where
  symbol : String
  nextFundingTime : Option (Except String Datetime) := none

/-- Assignments one after the other up to the first that raises: the error, and what is left. -/
def perform {ε σ : Type} : List (σ → Except ε σ) → σ → Option ε × σ
  | [], state => (none, state)
  | assignment :: rest, state =>
    match assignment state with
    | .error e => (some e, state)
    | .ok next => perform rest next

/-- A field that is there is read and set. -/
def setField {α : Type} (field : Option (Except String α))
    (set : FundingSchedule → α → FundingSchedule) (schedule : FundingSchedule) :
    Except String FundingSchedule :=
  match field with
  | none => .ok schedule
  | some (.error e) => .error e
  | some (.ok value) => .ok (set schedule value)

def checkInterval (symbol : String) (interval : ℤ) :
    Except String {hours : ℤ // 0 < hours ∧ hours ≤ 24} :=
  if hrange : 0 < interval ∧ interval ≤ 24 then .ok ⟨interval, hrange⟩
  else throw ("invalid funding interval for " ++ symbol ++ ": " ++ toString interval)

/-- The interval of a row, if it has one. -/
def FundingInfoRow.interval (symbol : String) (row : FundingInfoRow) :
    Option (Except String {hours : ℤ // 0 < hours ∧ hours ≤ 24}) :=
  row.fundingIntervalHours.map fun raw ↦ raw >>= checkInterval symbol

def setInterval (symbol : String) (row : FundingInfoRow) :
    FundingSchedule → Except String FundingSchedule :=
  setField (row.interval symbol) fun schedule interval ↦
    { schedule with intervalHours := interval.val, interval_pos := interval.property.1 }

def setCap (row : FundingInfoRow) : FundingSchedule → Except String FundingSchedule :=
  setField row.adjustedFundingRateCap fun schedule cap ↦ { schedule with rateCap := some cap }

def setFloor (row : FundingInfoRow) : FundingSchedule → Except String FundingSchedule :=
  setField row.adjustedFundingRateFloor fun schedule floor ↦
    { schedule with rateFloor := some floor }

/-- The floor is above the cap, where both are known. -/
def FundingSchedule.inverted (schedule : FundingSchedule) : Bool :=
  match schedule.rateCap, schedule.rateFloor with
  | some cap, some floor => cap < floor
  | _, _ => false

def checkBounds (symbol : String) (schedule : FundingSchedule) : Except String FundingSchedule :=
  if schedule.inverted then throw ("funding floor exceeds cap for " ++ symbol) else .ok schedule

def stamp (observedAt : Datetime) (schedule : FundingSchedule) : Except String FundingSchedule :=
  .ok { schedule with updatedAt := some observedAt }

/-- The assignments of one row of the funding information. -/
def assignments (symbol : String) (row : FundingInfoRow) (observedAt : Datetime) :
    List (FundingSchedule → Except String FundingSchedule) :=
  [setInterval symbol row, setCap row, setFloor row, checkBounds symbol,
    stamp observedAt]

/-! ### Updates -/

section Updates

variable (upper : String → String)

/-- `_schedule(symbol)` -/
def FundingCalendar.schedule (calendar : FundingCalendar) (symbol : String) : FundingSchedule :=
  calendar.schedules (upper symbol)

/-- What is done to the schedule of a symbol. -/
def FundingCalendar.modify (calendar : FundingCalendar) (symbol : String)
    (change : FundingSchedule → Option String × FundingSchedule) :
    Option String × FundingCalendar :=
  let changed := change (calendar.schedule upper symbol)
  (changed.1, { schedules := Function.update calendar.schedules (upper symbol) changed.2 })

/-- One row of the funding information, which may raise after a part of it is stored. -/
def FundingCalendar.updateRow (observedAt : Datetime) (row : FundingInfoRow)
    (calendar : FundingCalendar) : Option String × FundingCalendar :=
  let symbol := upper row.symbol
  if symbol = "" then (none, calendar)
  else calendar.modify upper symbol (perform (assignments symbol row observedAt))

/-- The rows up to the first that raises. -/
def FundingCalendar.updateFundingInfo (observedAt : Datetime) :
    List FundingInfoRow → FundingCalendar → Option String × FundingCalendar
  | [], calendar => (none, calendar)
  | row :: rest, calendar =>
    match calendar.updateRow upper observedAt row with
    | (some e, next) => (some e, next)
    | (none, next) => updateFundingInfo observedAt rest next

/-- A time that was reported more than a minute ago is not stored. -/
def setNextTime (row : PremiumIndexRow) (observedAt : Datetime) (schedule : FundingSchedule) :
    Except String FundingSchedule :=
  match row.nextFundingTime with
  | none => .ok schedule
  | some raw => do
    let nextTime ← raw
    let earliest ← observedAt.plus (-60000000)
    if earliest ≤ nextTime then return { schedule with nextFundingTime := some nextTime }
    else return schedule

def FundingCalendar.updatePremiumIndex (observedAt : Datetime) (row : PremiumIndexRow)
    (calendar : FundingCalendar) : Option String × FundingCalendar :=
  let symbol := upper row.symbol
  if symbol = "" then (none, calendar)
  else calendar.modify upper symbol (perform [setNextTime row observedAt, stamp observedAt])

end Updates

/-! ### A sample -/

/-- A calendar without reports, with settlements every eight hours from the epoch. -/
def eightHourly : FundingCalendar where
  schedules := fun _ ↦ { intervalHours := 8, interval_pos := by omega }

/-- Some hours after the epoch. -/
def hour (count : ℕ) (hrange : count ≤ 24) : Datetime :=
  ⟨count * 3600000000, by unfold minTime maxTime; omega⟩

end Bongus.Funding
