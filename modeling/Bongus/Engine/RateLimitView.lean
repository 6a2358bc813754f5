import Bongus.Engine.ExchangeReplies
import Bongus.Lib.Runs

/-!
# The view of the exchange's rate limits

`ExchangeRateLimitTelemetry` of `execution_engine/src/binance_rest.rs`: for one venue, what the
headers of its responses say of the weight used in a minute and of the orders of ten seconds and of
a minute. Of each counter the last reading that was taken is stored; a lower one is not taken while
the stored one is in its window, and the snapshot reports nothing once the stored one has left it.

A reading that was not taken can still be in its window when the stored one leaves it, and then the
snapshot reports less than was observed (`dropped_reading_forgotten`). `covers_iff` shows that the
snapshots along a run cover every reading of their window just if none is lost this way (`Keeps`).
-/

set_option autoImplicit false
set_option relaxedAutoImplicit false

namespace Bongus.Engine

open Lib.Text Lib.Runs Num ExactDecimal

/-- The values of the headers that are visible text. -/
abbrev HeaderMap := String → Option String

def rateLimitWindowMs : ℤ := 60000
def orderCountTenSecondWindowMs : ℤ := 10000
def defaultRateLimitRetryMs : ℤ := 60000
def defaultIpBanRetryMs : ℤ := 300000

def saturatingSubMs (x y : ℤ) : ℤ := max (-2 ^ 63) (min (x - y) (2 ^ 63 - 1))

/-- An unsigned integer of 64 bits. -/
def parseU64 (text : List Char) : Option ℕ :=
  match text with
  | '-' :: _ => none
  | _ => (parseInteger 65 text).map Int.toNat

def parseCounter (headers : HeaderMap) (names : List String) : Option ℕ :=
  names.findSome? fun name ↦ do
    let value ← headers name
    parseU64 (trim unicodeBlank value).toList

def parseUsedWeight (headers : HeaderMap) : Option ℕ :=
  parseCounter headers ["x-mbx-used-weight-1m", "x-sapi-used-ip-weight-1m", "x-mbx-used-weight"]

/-! ### One counter -/

/-- A reading that is stored, with its time. -/
structure WindowCounter where
  used : ℕ := 0
  observedAtMs : ℤ := 0
deriving DecidableEq, Repr

namespace WindowCounter

def updateMonotonicWindow (counter : WindowCounter) (observedUsed : ℕ) (nowMs windowMs : ℤ) :
    WindowCounter :=
  if counter.observedAtMs ≤ 0 ∨ windowMs ≤ saturatingSubMs nowMs counter.observedAtMs ∨
      counter.used ≤ observedUsed then
    ⟨observedUsed, nowMs⟩
  else counter

def effectiveWindowUsed (counter : WindowCounter) (eventTimeMs windowMs : ℤ) : ℕ :=
  if 0 < counter.observedAtMs ∧ counter.observedAtMs ≤ eventTimeMs ∧
      windowMs ≤ saturatingSubMs eventTimeMs counter.observedAtMs then 0
  else counter.used

end WindowCounter

/-! ### A venue -/

structure VenueRateLimitState where
  weight : WindowCounter := {}
  orders10s : WindowCounter := {}
  orders1m : WindowCounter := {}
  blockedUntilMs : ℤ := 0
deriving DecidableEq, Repr

structure Response where
  headers : HeaderMap
  status : ℕ
  observedAtMs : ℤ

section Venue

-- `parseSeconds` gives the finite number that a text denotes as a float, if it denotes one.
variable (parseSeconds : String → Option ℚ)

def retryAfterMs (headers : HeaderMap) (status : ℕ) : ℤ :=
  let seconds := ((headers "retry-after").bind
    fun value ↦ parseSeconds (trim unicodeBlank value)).filter (0 ≤ ·)
  match seconds with
  | some seconds => min ⌈seconds * 1000⌉ (2 ^ 63 - 1)
  | none => if status = 418 then defaultIpBanRetryMs else defaultRateLimitRetryMs

def recordReading (counter : WindowCounter) (reading : Option ℕ) (nowMs windowMs : ℤ) :
    WindowCounter :=
  match reading with
  | some used => counter.updateMonotonicWindow used nowMs windowMs
  | none => counter

def recordResponse (state : VenueRateLimitState) (response : Response) : VenueRateLimitState where
  weight := recordReading state.weight (parseUsedWeight response.headers) response.observedAtMs
    rateLimitWindowMs
  orders10s := recordReading state.orders10s
    (parseCounter response.headers ["x-mbx-order-count-10s"]) response.observedAtMs
    orderCountTenSecondWindowMs
  orders1m := recordReading state.orders1m
    (parseCounter response.headers ["x-mbx-order-count-1m", "x-mbx-order-count-1min"])
    response.observedAtMs rateLimitWindowMs
  blockedUntilMs :=
    if response.status = 418 ∨ response.status = 429 then
      max state.blockedUntilMs (saturatingAddMs response.observedAtMs
        (retryAfterMs parseSeconds response.headers response.status))
    else state.blockedUntilMs

end Venue

/-- The three counters of a venue. -/
inductive Counter where
  | weight
  | orders10s
  | orders1m
deriving DecidableEq, Repr

namespace Counter

def windowMs : Counter → ℤ
  | .weight | .orders1m => rateLimitWindowMs
  | .orders10s => orderCountTenSecondWindowMs

def stored (state : VenueRateLimitState) : Counter → WindowCounter
  | .weight => state.weight
  | .orders10s => state.orders10s
  | .orders1m => state.orders1m

def read (response : Response) : Counter → Option ℕ
  | .weight => parseUsedWeight response.headers
  | .orders10s => parseCounter response.headers ["x-mbx-order-count-10s"]
  | .orders1m => parseCounter response.headers ["x-mbx-order-count-1m", "x-mbx-order-count-1min"]

/-- The readings of a counter with their times. -/
def readings (counter : Counter) (responses : List Response) : List (ℕ × ℤ) :=
  responses.filterMap fun response ↦ (counter.read response).map (·, response.observedAtMs)

/-- What the snapshot reports for the counter. -/
def effectiveUsed (counter : Counter) (state : VenueRateLimitState) (eventTimeMs : ℤ) : ℕ :=
  (counter.stored state).effectiveWindowUsed eventTimeMs counter.windowMs

theorem windowMs_bounds (counter : Counter) :
    0 < counter.windowMs ∧ counter.windowMs < 2 ^ 63 := by
  cases counter <;> decide

@[simp] theorem stored_recordResponse (parseSeconds : String → Option ℚ) (counter : Counter)
    (state : VenueRateLimitState) (response : Response) :
    counter.stored (recordResponse parseSeconds state response) =
      recordReading (counter.stored state) (counter.read response) response.observedAtMs
        counter.windowMs := by
  cases counter <;> rfl

end Counter

/-! ### What is stored covers what was read -/

section Window

variable {windowMs : ℤ}

/-- The value reported at each time that is not before the readings is at least each of those in its
window. -/
def CoversReadings (windowMs : ℤ) (counter : WindowCounter) (readings : List (ℕ × ℤ)) : Prop :=
  ∀ eventTimeMs, (∀ reading ∈ readings, reading.2 ≤ eventTimeMs) → ∀ reading ∈ readings,
    eventTimeMs - windowMs < reading.2 →
      reading.1 ≤ counter.effectiveWindowUsed eventTimeMs windowMs

/-- A reading is taken without losing one of its window, or it is not taken and says nothing: it is
zero, or it has the time of the one that is stored. -/
def KeepsReading (windowMs : ℤ) (counter : WindowCounter) (used : ℕ) (nowMs : ℤ) : Prop :=
  counter.used ≤ used ∨ windowMs ≤ nowMs - counter.observedAtMs ∨
    0 < counter.observedAtMs ∧ (used = 0 ∨ nowMs = counter.observedAtMs)

/-- What is stored was read, and each reading is covered by it or had left the window before. -/
def Represents (windowMs : ℤ) (counter : WindowCounter) (readings : List (ℕ × ℤ)) : Prop :=
  (readings = [] ∧ counter = {} ∨ (counter.used, counter.observedAtMs) ∈ readings) ∧
    ∀ reading ∈ readings, reading.1 = 0 ∨ reading.2 ≤ counter.observedAtMs ∧
      (reading.1 ≤ counter.used ∨ reading.2 + windowMs ≤ counter.observedAtMs)

theorem le_saturatingSubMs (hwindow : 0 < windowMs ∧ windowMs < 2 ^ 63) {nowMs observedAtMs : ℤ} :
    windowMs ≤ saturatingSubMs nowMs observedAtMs ↔ windowMs ≤ nowMs - observedAtMs := by
  unfold saturatingSubMs
  omega

theorem updateMonotonicWindow_eq (hwindow : 0 < windowMs ∧ windowMs < 2 ^ 63)
    (counter : WindowCounter) (used : ℕ) (nowMs : ℤ) :
    counter.updateMonotonicWindow used nowMs windowMs =
      if counter.observedAtMs ≤ 0 ∨ windowMs ≤ nowMs - counter.observedAtMs ∨
        counter.used ≤ used then ⟨used, nowMs⟩ else counter := by
  simp only [WindowCounter.updateMonotonicWindow, le_saturatingSubMs hwindow]

theorem effectiveWindowUsed_eq (hwindow : 0 < windowMs ∧ windowMs < 2 ^ 63)
    (counter : WindowCounter) (eventTimeMs : ℤ) :
    counter.effectiveWindowUsed eventTimeMs windowMs =
      if 0 < counter.observedAtMs ∧ counter.observedAtMs ≤ eventTimeMs ∧
        windowMs ≤ eventTimeMs - counter.observedAtMs then 0 else counter.used := by
  simp only [WindowCounter.effectiveWindowUsed, le_saturatingSubMs hwindow]

theorem coversReadings_of_represents (hwindow : 0 < windowMs ∧ windowMs < 2 ^ 63)
    {counter : WindowCounter} {readings : List (ℕ × ℤ)}
    (hrepresents : Represents windowMs counter readings) :
    CoversReadings windowMs counter readings := by
  intro eventTimeMs hlast reading hmem hrecent
  rcases hrepresents.2 reading hmem with hzero | ⟨hbefore, hcovered⟩
  · exact hzero ▸ Nat.zero_le _
  have hstored : counter.observedAtMs ≤ eventTimeMs := by
    rcases hrepresents.1 with ⟨rfl, -⟩ | hstored
    · cases hmem
    · exact hlast _ hstored
  -- The stored reading is not older than this one, so neither has left the window.
  rw [effectiveWindowUsed_eq hwindow, if_neg (by omega)]
  rcases hcovered with hle | hold
  · exact hle
  · omega

/-- A reading that is taken, or that says nothing, keeps what is stored. -/
theorem represents_step (hwindow : 0 < windowMs ∧ windowMs < 2 ^ 63) {counter : WindowCounter}
    {readings : List (ℕ × ℤ)} (hrepresents : Represents windowMs counter readings) {used : ℕ}
    {nowMs : ℤ} (hlast : ∀ reading ∈ readings, reading.2 ≤ nowMs)
    (hkeeps : KeepsReading windowMs counter used nowMs) :
    Represents windowMs (counter.updateMonotonicWindow used nowMs windowMs)
      (readings ++ [(used, nowMs)]) := by
  obtain ⟨hstored, hall⟩ := hrepresents
  rw [updateMonotonicWindow_eq hwindow]
  split_ifs with htaken
  · refine ⟨Or.inr (by simp), fun reading hmem ↦ ?_⟩
    rcases List.mem_append.mp hmem with hbefore | hnew
    · have htime := hlast reading hbefore
      have hstored : counter.observedAtMs ≤ nowMs := by
        rcases hstored with ⟨rfl, -⟩ | hstored
        · cases hbefore
        · exact hlast _ hstored
      rcases hall reading hbefore with hzero | ⟨hle, hcovered⟩
      · exact Or.inl hzero
      refine Or.inr ⟨htime, ?_⟩
      dsimp only
      rcases hkeeps with hmore | hold | ⟨hpositive, hsame⟩
      · omega
      · omega
      · omega
    · obtain rfl := List.mem_singleton.mp hnew
      exact Or.inr ⟨le_rfl, Or.inl le_rfl⟩
  · obtain ⟨hpositive, hrecent, hless⟩ : 0 < counter.observedAtMs ∧
        nowMs - counter.observedAtMs < windowMs ∧ used < counter.used := by omega
    have hread : (counter.used, counter.observedAtMs) ∈ readings := by
      rcases hstored with ⟨-, rfl⟩ | hread
      · exact absurd hpositive (lt_irrefl 0)
      · exact hread
    refine ⟨Or.inr (List.mem_append_left _ hread), fun reading hmem ↦ ?_⟩
    rcases List.mem_append.mp hmem with hbefore | hnew
    · exact hall reading hbefore
    · obtain rfl := List.mem_singleton.mp hnew
      dsimp only
      rcases hkeeps with hmore | hold | ⟨-, hzero | hsame⟩
      · omega
      · omega
      · exact Or.inl hzero
      · exact Or.inr ⟨hsame.le, Or.inl hless.le⟩

/-- A reading that is lost is missing from a later snapshot. -/
theorem not_coversReadings_of_not_keeps (hwindow : 0 < windowMs ∧ windowMs < 2 ^ 63)
    {counter : WindowCounter} {readings : List (ℕ × ℤ)}
    (hrepresents : Represents windowMs counter readings) {used : ℕ} {nowMs : ℤ}
    (hlast : ∀ reading ∈ readings, reading.2 ≤ nowMs)
    (hlost : ¬ KeepsReading windowMs counter used nowMs) :
    ¬ CoversReadings windowMs (counter.updateMonotonicWindow used nowMs windowMs)
      (readings ++ [(used, nowMs)]) := by
  intro hcovers
  unfold KeepsReading at hlost
  have hless : used < counter.used := by omega
  have hread : (counter.used, counter.observedAtMs) ∈ readings := by
    rcases hrepresents.1 with ⟨-, rfl⟩ | hread
    · exact absurd hless (Nat.not_lt_zero used)
    · exact hread
  have htime : counter.observedAtMs ≤ nowMs := hlast _ hread
  rw [updateMonotonicWindow_eq hwindow] at hcovers
  by_cases hpositive : 0 < counter.observedAtMs
  · -- The reading was not taken: it is reported no more when the stored one leaves the window.
    rw [if_neg (by omega)] at hcovers
    have hreported := hcovers (counter.observedAtMs + windowMs) (fun reading hmem ↦ ?_)
      (used, nowMs) (by simp) (by dsimp only; omega)
    · rw [effectiveWindowUsed_eq hwindow, if_pos (by omega)] at hreported
      dsimp only at hreported
      omega
    · rcases List.mem_append.mp hmem with hbefore | hnew
      · have hbefore := hlast reading hbefore
        omega
      · obtain rfl := List.mem_singleton.mp hnew
        dsimp only
        omega
  · -- The stored reading has no time that counts, so the lower one replaced it.
    rw [if_pos (by omega)] at hcovers
    have hreported := hcovers nowMs (fun reading hmem ↦ ?_)
      (counter.used, counter.observedAtMs) (List.mem_append_left _ hread) (by dsimp only; omega)
    · rw [effectiveWindowUsed_eq hwindow, if_neg (by dsimp only; omega)] at hreported
      dsimp only at hreported
      omega
    · rcases List.mem_append.mp hmem with hbefore | hnew
      · exact hlast reading hbefore
      · obtain rfl := List.mem_singleton.mp hnew
        exact le_rfl

end Window

/-! ### Runs -/

section Runs

variable (parseSeconds : String → Option ℚ) (counter : Counter)

def view (responses : List Response) : VenueRateLimitState :=
  run (recordResponse parseSeconds) {} responses

/-- The snapshots that are not before the responses cover the readings of the counter. -/
def Covers (responses : List Response) : Prop :=
  ∀ eventTimeMs, (∀ response ∈ responses, response.observedAtMs ≤ eventTimeMs) →
    ∀ reading ∈ counter.readings responses, eventTimeMs - counter.windowMs < reading.2 →
      reading.1 ≤ counter.effectiveUsed (view parseSeconds responses) eventTimeMs

/-- A response does not lose a reading of the counter. -/
def Keeps (state : VenueRateLimitState) (response : Response) : Prop :=
  ∀ used, counter.read response = some used →
    KeepsReading counter.windowMs (counter.stored state) used response.observedAtMs

/-- The responses come in the order of their times. -/
def InOrder (responses : List Response) : Prop :=
  responses.Pairwise fun earlier later ↦ earlier.observedAtMs ≤ later.observedAtMs

theorem readings_concat (responses : List Response) (response : Response) :
    counter.readings (responses ++ [response]) = counter.readings responses ++
      ((counter.read response).map (·, response.observedAtMs)).toList := by
  rw [Counter.readings, Counter.readings, List.filterMap_append]
  cases hread : counter.read response <;> simp [hread]

theorem exists_of_mem_readings {responses : List Response} {reading : ℕ × ℤ}
    (hmem : reading ∈ counter.readings responses) :
    ∃ response ∈ responses, response.observedAtMs = reading.2 := by
  simp only [Counter.readings, List.mem_filterMap, Option.map_eq_some_iff] at hmem
  obtain ⟨response, hresponse, used, -, rfl⟩ := hmem
  exact ⟨response, hresponse, rfl⟩

/-- Along responses that lose nothing, what is stored covers what was read. -/
theorem represents_of_along {responses : List Response} (horder : InOrder responses)
    (halong : Along (recordResponse parseSeconds) (Keeps counter) {} responses) :
    Represents counter.windowMs (counter.stored (view parseSeconds responses))
      (counter.readings responses) := by
  induction responses using List.reverseRecOn with
  | nil => exact ⟨Or.inl ⟨rfl, by cases counter <;> rfl⟩, by simp [Counter.readings]⟩
  | append_singleton before response ih =>
    obtain ⟨hbefore, -, hlater⟩ := List.pairwise_append.mp horder
    obtain ⟨halong, hkeeps, -⟩ := (along_append _ _ _).mp halong
    have hrepresents := ih hbefore halong
    rw [view, run_concat, readings_concat, Counter.stored_recordResponse]
    cases hread : counter.read response with
    | none =>
      rw [Option.map_none, Option.toList_none, List.append_nil]
      exact hrepresents
    | some used =>
      refine represents_step counter.windowMs_bounds hrepresents (fun reading hmem ↦ ?_)
        (hkeeps used hread)
      obtain ⟨earlier, hearlier, htime⟩ := exists_of_mem_readings counter hmem
      exact htime ▸ hlater earlier hearlier response (List.mem_singleton_self _)

theorem covers_of_coversReadings {responses : List Response}
    (hcovers : CoversReadings counter.windowMs (counter.stored (view parseSeconds responses))
      (counter.readings responses)) : Covers parseSeconds counter responses := by
  intro eventTimeMs hlast
  refine hcovers eventTimeMs fun reading hmem ↦ ?_
  obtain ⟨response, hresponse, htime⟩ := exists_of_mem_readings counter hmem
  exact htime ▸ hlast response hresponse

/-- The snapshots along responses that come in the order of their times cover every reading of the
counter in its window just if no response loses one. -/
theorem covers_iff {responses : List Response} (horder : InOrder responses) :
    (∀ before, before <+: responses → Covers parseSeconds counter before) ↔
      Along (recordResponse parseSeconds) (Keeps counter) {} responses := by
  constructor
  · intro hcovers
    induction responses using List.reverseRecOn with
    | nil => trivial
    | append_singleton before response ih =>
      obtain ⟨hbefore, -, hlater⟩ := List.pairwise_append.mp horder
      have halong := ih hbefore fun earlier hearly ↦
        hcovers earlier (hearly.trans (List.prefix_append before [response]))
      refine (along_append _ _ _).mpr ⟨halong, fun used hread ↦ ?_, trivial⟩
      by_contra hlost
      have hrepresents := represents_of_along parseSeconds counter hbefore halong
      refine not_coversReadings_of_not_keeps counter.windowMs_bounds hrepresents
        (fun reading hmem ↦ ?_) hlost fun eventTimeMs hlast reading hmem hrecent ↦ ?_
      · obtain ⟨earlier, hearlier, htime⟩ := exists_of_mem_readings counter hmem
        exact htime ▸ hlater earlier hearlier response (List.mem_singleton_self _)
      · have hnow : response.observedAtMs ≤ eventTimeMs := hlast (used, _) (by simp)
        have hreported := hcovers _ List.prefix_rfl eventTimeMs (fun other hother ↦ ?_) reading
          (by rw [readings_concat, hread]; exact hmem) hrecent
        · rw [Counter.effectiveUsed, view, run_concat, Counter.stored_recordResponse,
            hread] at hreported
          exact hreported
        · rcases List.mem_append.mp hother with hearlier | hnew
          · exact (hlater other hearlier response (List.mem_singleton_self _)).trans hnow
          · exact List.mem_singleton.mp hnew ▸ hnow
  · rintro halong before ⟨after, rfl⟩
    have hbefore := (List.pairwise_append.mp horder).1
    exact covers_of_coversReadings parseSeconds counter (coversReadings_of_represents
      counter.windowMs_bounds
      (represents_of_along parseSeconds counter hbefore ((along_append _ _ _).mp halong).1))

end Runs

/-- A response with a used weight. -/
def weightResponse (used : String) (observedAtMs : ℤ) : Response where
  headers := fun name ↦ if name = "x-mbx-used-weight-1m" then some used else none
  status := 200
  observedAtMs := observedAtMs

theorem covers_iff_rising :
    (∀ before, before <+: [weightResponse "50" 1000, weightResponse "100" 50000] →
        Covers (fun _ ↦ none) .weight before) ↔
      Along (recordResponse fun _ ↦ none) (Keeps .weight) {}
        [weightResponse "50" 1000, weightResponse "100" 50000] :=
  covers_iff (fun _ ↦ none) .weight (by simp [InOrder, weightResponse])

/-- A weight of 50 that is read 49 seconds after one of 100 is not taken, and 11 seconds later
nothing is reported. -/
theorem dropped_reading_forgotten :
    InOrder [weightResponse "100" 1000, weightResponse "50" 50000] ∧
      Counter.weight.effectiveUsed (view (fun _ ↦ none)
        [weightResponse "100" 1000, weightResponse "50" 50000]) 61000 = 0 ∧
      ¬ Covers (fun _ ↦ none) .weight [weightResponse "100" 1000, weightResponse "50" 50000] := by
  have hreported : Counter.weight.effectiveUsed (view (fun _ ↦ none)
      [weightResponse "100" 1000, weightResponse "50" 50000]) 61000 = 0 := by decide +kernel
  refine ⟨by simp [InOrder, weightResponse], hreported, fun hcovers ↦ ?_⟩
  have hcovered := hcovers 61000 (by simp [weightResponse]) (50, 50000) (by decide +kernel)
    (by decide)
  rw [hreported] at hcovered
  exact absurd hcovered (by decide)

end Bongus.Engine
