import Bongus.Hedge.StaleUpdates

/-!
# Deliveries of one history

The updates of a cycle form a history: on each leg they carry increasing sequences, event times and
quantities that do not decrease, one order, and no open status after a terminal one (`History`).
The exchange delivers them in any order and any number of times. What the cycle knows after some of
them is the newest update of each leg and the events that it has seen (`Delivered`), which each call
keeps (`delivered_step`). So all deliveries of a history that raises nothing and breaches nothing in
order end alike (`leg_updates_commute`).

Decimal arithmetic may round and trap. `Computes` asks that it does neither to the extent that a
difference of two quantities of a leg vanishes, or a mismatch cannot be computed.
-/

set_option autoImplicit false
set_option relaxedAutoImplicit false

namespace Bongus.Hedge.Deliveries

open LegStateMachine Completion StaleUpdates Lib.Decimals Lib.Fallible Lib.Runs Lib.Text

variable (host : Host)

/-! ### Histories -/

/-- The number that an update carries as its quantity. -/
def quantity (update : LegUpdate) : ℚ := update.cumulativeQuantity.value

theorem quantity_of_decimal {update : LegUpdate} {number : Decimal}
    (hnumber : update.cumulativeQuantity = .decimal number) : quantity update = number.value := by
  rw [quantity, hnumber, Numeric.value]

def terminal (update : LegUpdate) : Bool := (legStatus host update.status).terminal

/-- The second update comes later on the same leg. -/
structure Precedes (first second : LegUpdate) : Prop where
  sequence : ∃ s t, first.sequence = some s ∧ second.sequence = some t ∧ s < t
  time : first.eventTimeMs ≤ second.eventTimeMs
  quantity : quantity first ≤ quantity second
  orderId : first.orderId = second.orderId
  clientOrderId : first.clientOrderId = second.clientOrderId
  terminal : terminal host first = true → terminal host second = true

structure History (history : List LegUpdate) : Prop where
  events : (history.map (·.eventId)).Nodup
  ordered : history.Pairwise fun first second ↦ first.leg = second.leg → Precedes host first second

/-- The call returns. -/
def Returns (cycle : HedgeCycleState) (update : LegUpdate) : Prop :=
  ∃ transition, (cycle.apply host update).1 = .ok transition

instance (cycle : HedgeCycleState) (update : LegUpdate) :
    Decidable (Returns host cycle update) :=
  decidable_of_iff ((cycle.apply host update).1.isOk = true) <| by
    unfold Returns
    cases (cycle.apply host update).1 with
    | error message => simp [Except.isOk, Except.toBool]
    | ok transition => simp [Except.isOk, Except.toBool]

/-- No breach is recorded. -/
def Unbreached (cycle : HedgeCycleState) : Prop :=
  cycle.breaches = [] ∧ ∀ which, (cycle.leg which).breaches = []

instance (cycle : HedgeCycleState) : Decidable (Unbreached cycle) :=
  decidable_of_iff (cycle.breaches = [] ∧ cycle.spot.breaches = [] ∧ cycle.perp.breaches = [])
    ⟨fun h ↦ ⟨h.1, fun which ↦ by cases which; exacts [h.2.1, h.2.2]⟩,
      fun h ↦ ⟨h.1, h.2 .spot, h.2 .perp⟩⟩

/-! ### Arithmetic -/

/-- What a leg can hold: what it holds at the start, or the quantity of one of its updates. -/
def Holds (start : HedgeCycleState) (pool : List LegUpdate) (which : Leg) (held : ℚ) : Prop :=
  held = (start.leg which).cumulativeQuantity ∨
    ∃ update ∈ pool, update.leg = which ∧ quantity update = held

/-- The cycle has the targets and the parameters of another one. -/
structure SameHedge (start cycle : HedgeCycleState) : Prop where
  initialSpot : cycle.initialSpotQuantity = start.initialSpotQuantity
  initialPerp : cycle.initialPerpQuantity = start.initialPerpQuantity
  multiplier : cycle.perpDeltaMultiplier = start.perpDeltaMultiplier
  tolerance : cycle.quantityTolerance = start.quantityTolerance
  target : ∀ which, (cycle.leg which).targetSignedQuantity =
    (start.leg which).targetSignedQuantity

/-- The differences of the quantities of a leg are computed, and vanish only if they are zero. The
mismatch of any quantities of the two legs is computed. -/
structure Computes (start : HedgeCycleState) (pool : List LegUpdate) : Prop where
  difference : ∀ which held next, Holds start pool which held → Holds start pool which next →
    held ≤ next → ∃ delta, host.context.sub next held = .ok delta ∧ 0 ≤ delta ∧
      (delta = 0 ↔ held = next)
  mismatch : ∀ cycle, SameHedge start cycle →
    (∀ which, Holds start pool which (cycle.leg which).cumulativeQuantity) →
      ∃ mismatch, cycle.mismatchQuantity host = .ok mismatch

theorem computes_exact (hcontext : host.context = Context.exact) (start : HedgeCycleState)
    (pool : List LegUpdate) : Computes host start pool where
  difference which held next _ _ hle := by
    refine ⟨next - held, by rw [hcontext, Context.exact_sub], sub_nonneg.mpr hle, ?_⟩
    rw [sub_eq_zero, eq_comm]
  mismatch cycle _ _ := by
    simp [HedgeCycleState.mismatchQuantity, HedgeCycleState.currentSpotQuantity,
      HedgeCycleState.currentPerpQuantity, LegExecutionState.signedFilledQuantity, hcontext]

theorem sameHedge_step {start cycle : HedgeCycleState} (hsame : SameHedge start cycle)
    (update : LegUpdate) : SameHedge start (step host cycle update) := by
  obtain ⟨hspot, hperp, hmultiplier⟩ := kept_of_step host cycle update
  have hfixed := fixed_of_step host cycle update
  exact ⟨hspot.trans hsame.initialSpot, hperp.trans hsame.initialPerp,
    hmultiplier.trans hsame.multiplier, (hfixed .spot).2.trans hsame.tolerance,
    fun which ↦ (hfixed which).1.trans (hsame.target which)⟩

/-! ### Updates that can be taken in any order -/

/-- An assessment without a breach does not depend on what the leg holds, unless the update adds to
a terminal leg. -/
theorem assess_congr {tolerance : ℚ} {state other : LegExecutionState} {label status : LegStatus}
    {cumulative fillDelta otherDelta : ℚ}
    (htarget : other.targetSignedQuantity = state.targetSignedQuantity)
    (hlate : ¬ (0 < otherDelta ∧ other.status.terminal = true))
    (hassess : assess host tolerance state label cumulative fillDelta = .ok (status, [])) :
    assess host tolerance other label cumulative otherDelta = .ok (status, []) := by
  have hkeptLate : ¬ (0 < fillDelta ∧ state.status.terminal = true) := by
    obtain ⟨-, -, -, -, -, hkept, -⟩ := assess_nil host hassess
    exact hkept
  have hsame : breachIf (otherDelta > 0 ∧ other.status.terminal = true) .lateFillAfterTerminal =
      breachIf (fillDelta > 0 ∧ state.status.terminal = true) .lateFillAfterTerminal := by
    rw [breachIf_eq_nil.mpr hlate, breachIf_eq_nil.mpr hkeptLate]
  rw [← hassess]
  simp only [assess, LegExecutionState.targetQuantity, htarget, hsame]

/-- What the updates of a history satisfy that raises nothing and breaches nothing. -/
structure Sound (start : HedgeCycleState) (update : LegUpdate) : Prop where
  named : ¬ isBlank separatorBlank update.eventId
  reads : ∃ number, update.cumulativeQuantity = .decimal number
  nonneg : 0 ≤ quantity update
  assessed : ∀ state fillDelta,
    state.targetSignedQuantity = (start.leg update.leg).targetSignedQuantity →
    ¬ (0 < fillDelta ∧ state.status.terminal = true) →
      assess host start.quantityTolerance state (legStatus host update.status) (quantity update)
        fillDelta = .ok (legStatus host update.status, [])

/-- Updates that can be delivered in any order. -/
structure Pool (start : HedgeCycleState) (pool : List LegUpdate) : Prop where
  events : ∀ first ∈ pool, ∀ second ∈ pool, first.eventId = second.eventId → first = second
  compared : ∀ first ∈ pool, ∀ second ∈ pool, first.leg = second.leg →
    first = second ∨ Precedes host first second ∨ Precedes host second first
  sound : ∀ update ∈ pool, Sound host start update
  settled : ∀ first ∈ pool, ∀ second ∈ pool, first.leg = second.leg →
    Precedes host first second → terminal host first = true → quantity first = quantity second

variable {host}

theorem Sound.read {start : HedgeCycleState} {update : LegUpdate}
    (hsound : Sound host start update) :
    ∃ number, update.cumulativeQuantity.read "cumulative_quantity" = .ok number ∧
      quantity update = number.value := by
  obtain ⟨number, hnumber⟩ := hsound.reads
  exact ⟨number, Numeric.read_eq_ok.mpr hnumber, quantity_of_decimal hnumber⟩

theorem Sound.fingerprint {start : HedgeCycleState} {update : LegUpdate}
    (hsound : Sound host start update) : ∃ print, update.fingerprint host = .ok print := by
  obtain ⟨number, hread, -⟩ := hsound.read
  rw [LegUpdate.fingerprint, hread]
  exact ⟨_, rfl⟩

theorem Precedes.asymm {first second : LegUpdate} (hfirst : Precedes host first second) :
    ¬ Precedes host second first := by
  intro hsecond
  obtain ⟨s, t, hs, ht, hlt⟩ := hfirst.sequence
  obtain ⟨t', s', ht', hs', hgt⟩ := hsecond.sequence
  cases hs.symm.trans hs'
  cases ht.symm.trans ht'
  exact lt_asymm hlt hgt

theorem Precedes.trans {first second third : LegUpdate} (hfirst : Precedes host first second)
    (hsecond : Precedes host second third) : Precedes host first third where
  sequence := by
    obtain ⟨s, t, hs, ht, hlt⟩ := hfirst.sequence
    obtain ⟨t', u, ht', hu, hlt'⟩ := hsecond.sequence
    cases ht.symm.trans ht'
    exact ⟨s, u, hs, hu, hlt.trans hlt'⟩
  time := hfirst.time.trans hsecond.time
  quantity := hfirst.quantity.trans hsecond.quantity
  orderId := hfirst.orderId.trans hsecond.orderId
  clientOrderId := hfirst.clientOrderId.trans hsecond.clientOrderId
  terminal := hsecond.terminal ∘ hfirst.terminal

/-! ### What a cycle knows -/

variable (host)

/-- The leg after an update that was the first one written to it. -/
def settledLeg (state : LegExecutionState) (update : LegUpdate) : LegExecutionState :=
  state.written update (quantity update) (legStatus host update.status) []

/-- The newest of the updates of a leg. -/
structure Newest (done : List LegUpdate) (which : Leg) (newest : LegUpdate) : Prop where
  mem : newest ∈ done
  leg : newest.leg = which
  latest : ∀ update ∈ done, update.leg = which → update = newest ∨ Precedes host update newest

/-- What the cycle knows after some updates. -/
structure Delivered (start : HedgeCycleState) (done : List LegUpdate) (cycle : HedgeCycleState) :
    Prop where
  hedge : SameHedge start cycle
  legs : ∀ which, (∀ update ∈ done, update.leg ≠ which) ∧ cycle.leg which = start.leg which ∨
    ∃ newest, Newest host done which newest ∧
      cycle.leg which = settledLeg host (start.leg which) newest
  seen : ∀ eventId, cycle.seenEvents.lookup eventId =
    (done.find? fun update ↦ update.eventId = eventId).bind fun update ↦
      (update.fingerprint host).toOption
  breaches : cycle.breaches = []

variable {host}

theorem Newest.concat {done : List LegUpdate} {which : Leg} {newest update : LegUpdate}
    (hnewest : Newest host done which newest)
    (holder : update.leg = which → update = newest ∨ Precedes host update newest) :
    Newest host (done ++ [update]) which newest where
  mem := List.mem_append_left _ hnewest.mem
  leg := hnewest.leg
  latest other hother hleg := by
    rcases List.mem_append.mp hother with hother | hother
    · exact hnewest.latest other hother hleg
    · rw [List.mem_singleton.mp hother] at hleg ⊢
      exact holder hleg

theorem newest_concat {done : List LegUpdate} {update : LegUpdate}
    (hlater : ∀ other ∈ done, other.leg = update.leg → Precedes host other update) :
    Newest host (done ++ [update]) update.leg update where
  mem := by simp
  leg := rfl
  latest other hother hleg := by
    rcases List.mem_append.mp hother with hother | hother
    · exact Or.inr (hlater other hother hleg)
    · exact Or.inl (List.mem_singleton.mp hother)

/-- The newest update of a leg replaces an older one as if it were the first. -/
theorem written_settledLeg {state : LegExecutionState}
    (hstate : state = { targetSignedQuantity := state.targetSignedQuantity })
    {older newer : LegUpdate} (hprecedes : Precedes host older newer) :
    (settledLeg host state older).written newer (quantity newer) (legStatus host newer.status) [] =
      settledLeg host state newer := by
  obtain ⟨s, t, hs, ht, hlt⟩ := hprecedes.sequence
  have hsequence : nextSequence (nextSequence none (some s)) (some t) =
      nextSequence none (some t) := by
    have hzero : (if s = 0 then t else s) ≤ t := by
      split_ifs
      · exact le_rfl
      · exact hlt.le
    simp [nextSequence, hzero]
  have htime : max (max 0 older.eventTimeMs) newer.eventTimeMs = max 0 newer.eventTimeMs := by
    rw [max_assoc, max_eq_right hprecedes.time]
  rw [hstate]
  simp [settledLeg, LegExecutionState.written, record, hs, ht, hsequence, htime,
    hprecedes.orderId, hprecedes.clientOrderId]

section Concat

variable {start cycle next : HedgeCycleState} {done : List LegUpdate} {update : LegUpdate}
  (hdelivered : Delivered host start done cycle)

include hdelivered

/-- An update that is not newer leaves the legs. -/
theorem legs_of_kept (hkept : next.leg = cycle.leg)
    (holder : ∃ newest, Newest host done update.leg newest ∧
      (update = newest ∨ Precedes host update newest)) (which : Leg) :
    (∀ other ∈ done ++ [update], other.leg ≠ which) ∧ next.leg which = start.leg which ∨
      ∃ newest, Newest host (done ++ [update]) which newest ∧
        next.leg which = settledLeg host (start.leg which) newest := by
  rw [hkept]
  obtain ⟨last, hlast, hbefore⟩ := holder
  rcases hdelivered.legs which with ⟨hnone, hleg⟩ | ⟨newest, hnewest, hleg⟩
  · refine Or.inl ⟨fun other hother ↦ ?_, hleg⟩
    rcases List.mem_append.mp hother with hother | hother
    · exact hnone other hother
    · rw [List.mem_singleton.mp hother]
      rintro rfl
      exact hnone last hlast.mem hlast.leg
  · refine Or.inr ⟨newest, hnewest.concat fun hupdate ↦ ?_, hleg⟩
    subst hupdate
    rcases hlast.latest newest hnewest.mem hnewest.leg with rfl | hprecedes
    · exact hbefore
    · rcases hnewest.latest last hlast.mem hlast.leg with rfl | hconverse
      · exact hbefore
      · exact absurd hconverse hprecedes.asymm

/-- A newer update is written to its leg. -/
theorem legs_of_written (hlater : ∀ other ∈ done, other.leg = update.leg →
      Precedes host other update)
    (hwritten : ∀ which, next.leg which = if which = update.leg then
      settledLeg host (start.leg update.leg) update else cycle.leg which) (which : Leg) :
    (∀ other ∈ done ++ [update], other.leg ≠ which) ∧ next.leg which = start.leg which ∨
      ∃ newest, Newest host (done ++ [update]) which newest ∧
        next.leg which = settledLeg host (start.leg which) newest := by
  rw [hwritten which]
  split_ifs with hwhich
  · subst hwhich
    exact Or.inr ⟨update, newest_concat hlater, rfl⟩
  · rcases hdelivered.legs which with ⟨hnone, hleg⟩ | ⟨newest, hnewest, hleg⟩
    · refine Or.inl ⟨fun other hother ↦ ?_, hleg⟩
      rcases List.mem_append.mp hother with hother | hother
      · exact hnone other hother
      · rw [List.mem_singleton.mp hother]
        exact Ne.symm hwhich
    · exact Or.inr ⟨newest, hnewest.concat fun h ↦ absurd h.symm hwhich, hleg⟩

/-- The event of an update is seen. -/
theorem seen_of_see (hsound : ∀ other ∈ done, Sound host start other) {print : String}
    (hprint : update.fingerprint host = .ok print) (eventId : String) :
    (cycle.see update.eventId print).seenEvents.lookup eventId =
      ((done ++ [update]).find? fun other ↦ other.eventId = eventId).bind fun other ↦
        (other.fingerprint host).toOption := by
  rw [HedgeCycleState.see, List.lookup_append, hdelivered.seen, List.find?_append]
  cases hfind : done.find? fun other ↦ other.eventId = eventId with
  | none =>
    by_cases hevent : update.eventId = eventId
    · simp [hevent, hprint, Except.toOption]
    · simp [hevent, Ne.symm hevent]
  | some other =>
    obtain ⟨found, hfound⟩ := (hsound other (List.mem_of_find?_eq_some hfind)).fingerprint
    simp [hfound, Except.toOption]

end Concat

/-! ### One call -/

theorem plan_of_seen {cycle : HedgeCycleState} {update : LegUpdate} {print : String}
    (hnamed : ¬ isBlank separatorBlank update.eventId)
    (hprint : update.fingerprint host = .ok print)
    (hseen : cycle.seenEvents.lookup update.eventId = some print) :
    plan host cycle update = .ok (print, .duplicate) := by
  simp only [plan, hprint, hseen, if_neg hnamed, ok_bind, ne_eq, not_true_eq_false, if_false]
  rfl

/-- An update with a lower sequence that adds nothing is stale. -/
theorem plan_of_older {cycle : HedgeCycleState} {update : LegUpdate} {number : Decimal}
    {print : String} (hnamed : ¬ isBlank separatorBlank update.eventId)
    (hprint : update.fingerprint host = .ok print)
    (hunseen : cycle.seenEvents.lookup update.eventId = none)
    (hread : update.cumulativeQuantity.read "cumulative_quantity" = .ok number)
    (hnonneg : 0 ≤ number.value)
    (hsequence : staleSequence (cycle.leg update.leg) update = true)
    (hle : number.value ≤ (cycle.leg update.leg).cumulativeQuantity)
    (hequal : number.value = (cycle.leg update.leg).cumulativeQuantity →
      host.context.sub number.value (cycle.leg update.leg).cumulativeQuantity = .ok 0 ∧
        ∃ result, assess host cycle.quantityTolerance (cycle.leg update.leg)
          (legStatus host update.status) number.value 0 = .ok result) :
    plan host cycle update = .ok (print, .stale) := by
  simp only [plan, hprint, hunseen, hread, if_neg hnamed, if_neg (not_lt.mpr hnonneg), ok_bind]
  by_cases hless : number.value < (cycle.leg update.leg).cumulativeQuantity
  · rw [if_pos hless, if_pos (Or.inl hsequence)]
    rfl
  · obtain ⟨hsub, result, hassess⟩ := hequal (le_antisymm hle (not_lt.mp hless))
    rw [if_neg hless, hsub, ok_bind, hassess, ok_bind, if_pos ⟨hsequence, rfl⟩]
    rfl

theorem returns_of_plan {cycle : HedgeCycleState} {update : LegUpdate} {print : String}
    {effect : Effect} {mismatch : ℚ} (hplan : plan host cycle update = .ok (print, effect))
    (hmismatch : (step host cycle update).mismatchQuantity host = .ok mismatch) :
    Returns host cycle update := by
  unfold step HedgeCycleState.apply at hmismatch
  unfold Returns HedgeCycleState.apply
  simp only [hplan] at hmismatch ⊢
  rw [hmismatch]
  exact ⟨_, rfl⟩

theorem step_of_plan {cycle : HedgeCycleState} {update : LegUpdate} {print : String}
    {effect : Effect} (hplan : plan host cycle update = .ok (print, effect)) :
    step host cycle update = cycle.after update print effect := by
  unfold step HedgeCycleState.apply
  simp only [hplan]

theorem fingerprint_of_plan {cycle : HedgeCycleState} {update : LegUpdate} {print : String}
    {effect : Effect} (hplan : plan host cycle update = .ok (print, effect)) :
    update.fingerprint host = .ok print := by
  unfold plan at hplan
  simp only [throw_bind, check_eq_ok, bind_eq_ok] at hplan
  obtain ⟨-, found, hfound, hrest⟩ := hplan
  suffices hsame : found = print by rw [hfound, hsame]
  split at hrest
  · simp only [check_eq_ok, pure_eq_ok, Prod.mk.injEq] at hrest
    exact hrest.2.1
  · simp only [check_eq_ok, bind_eq_ok] at hrest
    obtain ⟨number, -, -, hrest⟩ := hrest
    split at hrest
    · split at hrest
      · exact (Prod.mk.inj (pure_eq_ok.mp hrest)).1
      · simp at hrest
    · obtain ⟨delta, -, hrest⟩ := bind_eq_ok.mp hrest
      obtain ⟨⟨status, breaches⟩, -, hrest⟩ := bind_eq_ok.mp hrest
      split at hrest
      · exact (Prod.mk.inj (pure_eq_ok.mp hrest)).1
      · simp only [check_eq_ok, pure_eq_ok, Prod.mk.injEq] at hrest
        exact hrest.2.2.1

theorem staleSequence_of_precedes {start : HedgeCycleState} {which : Leg}
    (hfresh : Fresh start) {older newer : LegUpdate} (hprecedes : Precedes host older newer) :
    staleSequence (settledLeg host (start.leg which) newer) older = true ∧
      staleSequence (settledLeg host (start.leg which) older) newer = false := by
  obtain ⟨s, t, hs, ht, hlt⟩ := hprecedes.sequence
  rw [hfresh.leg which]
  simp [staleSequence, settledLeg, LegExecutionState.written, nextSequence, hs, ht, hlt, hlt.le]

section Step

variable {start cycle : HedgeCycleState} {done pool : List LegUpdate} {update : LegUpdate}
  (hfresh : Fresh start) (hpool : Pool host start pool) (hdone : ∀ other ∈ done, other ∈ pool)
  (hupdate : update ∈ pool) (hdelivered : Delivered host start done cycle)

include hdone hdelivered

/-- A leg holds the quantity of an update of the pool. -/
theorem holds_of_delivered (which : Leg) :
    Holds start pool which (cycle.leg which).cumulativeQuantity := by
  rcases hdelivered.legs which with ⟨-, hleg⟩ | ⟨newest, hnewest, hleg⟩
  · rw [hleg]
    exact Or.inl rfl
  · rw [hleg]
    exact Or.inr ⟨newest, hdone newest hnewest.mem, hnewest.leg, rfl⟩

include hpool hupdate

theorem lookup_of_not_mem (hnew : update ∉ done) :
    cycle.seenEvents.lookup update.eventId = none := by
  rw [hdelivered.seen, List.find?_eq_none.mpr, Option.bind_none]
  intro other hother hevent
  have hsame := hpool.events other (hdone other hother) update hupdate (of_decide_eq_true hevent)
  rw [hsame] at hother
  exact hnew hother

/-- An update that was delivered before changes nothing. -/
theorem plan_of_mem (hmem : update ∈ done) :
    ∃ print, plan host cycle update = .ok (print, .duplicate) := by
  have hsound := hpool.sound update hupdate
  obtain ⟨print, hprint⟩ := hsound.fingerprint
  refine ⟨print, plan_of_seen hsound.named hprint ?_⟩
  rw [hdelivered.seen]
  have hsome : (done.find? fun other ↦ other.eventId = update.eventId).isSome := by
    rw [List.find?_isSome]
    exact ⟨update, hmem, by simp⟩
  obtain ⟨found, hfound⟩ := Option.isSome_iff_exists.mp hsome
  have hevent : found.eventId = update.eventId := by simpa using List.find?_some hfound
  have hsame := hpool.events found (hdone found (List.mem_of_find?_eq_some hfound)) update hupdate
    hevent
  rw [hfound, hsame, Option.bind_some, hprint]
  rfl

include hfresh

/-- An update that is older than one delivered before is stale. -/
theorem plan_of_precedes (hcomputes : Computes host start pool) (hnew : update ∉ done)
    {newest : LegUpdate}
    (hleg : cycle.leg update.leg = settledLeg host (start.leg update.leg) newest)
    (hprecedes : Precedes host update newest) :
    ∃ print, update.fingerprint host = .ok print ∧
      plan host cycle update = .ok (print, .stale) := by
  have hsound := hpool.sound update hupdate
  obtain ⟨print, hprint⟩ := hsound.fingerprint
  obtain ⟨number, hread, hnumber⟩ := hsound.read
  have hheld : (cycle.leg update.leg).cumulativeQuantity = quantity newest := by rw [hleg]; rfl
  refine ⟨print, hprint, plan_of_older hsound.named hprint
    (lookup_of_not_mem hpool hdone hupdate hdelivered hnew) hread ?_ ?_ ?_ fun hequal ↦
      ⟨?_, (legStatus host update.status, []), ?_⟩⟩
  · rw [← hnumber]
    exact hsound.nonneg
  · rw [hleg]
    exact (staleSequence_of_precedes hfresh hprecedes).1
  · rw [← hnumber, hheld]
    exact hprecedes.quantity
  · have hholds := holds_of_delivered hdone hdelivered update.leg
    obtain ⟨delta, hsub, -, hzero⟩ := hcomputes.difference update.leg _ _ hholds hholds le_rfl
    rw [hequal, hsub, hzero.mpr rfl]
  · rw [← hnumber, hdelivered.hedge.tolerance]
    exact hsound.assessed _ 0 (hdelivered.hedge.target update.leg) fun hlate ↦ lt_irrefl _ hlate.1

/-- An update that is newer than all of its leg is written. -/
theorem writes_of_newer (hcomputes : Computes host start pool) (hnew : update ∉ done)
    (hlater : ∀ other ∈ done, other.leg = update.leg → Precedes host other update) :
    ∃ fillDelta, Writes host cycle update (quantity update) fillDelta
      (legStatus host update.status) [] := by
  have hsound := hpool.sound update hupdate
  obtain ⟨number, hread, hnumber⟩ := hsound.read
  have hholds := holds_of_delivered hdone hdelivered update.leg
  have hown : Holds start pool update.leg (quantity update) :=
    Or.inr ⟨update, hupdate, rfl, rfl⟩
  have hunseen := lookup_of_not_mem hpool hdone hupdate hdelivered hnew
  rcases hdelivered.legs update.leg with ⟨-, hleg⟩ | ⟨newest, hnewest, hleg⟩
  · have hempty := hleg.trans (hfresh.leg update.leg)
    have hle : (cycle.leg update.leg).cumulativeQuantity ≤ quantity update := by
      rw [hempty]
      exact hsound.nonneg
    obtain ⟨delta, hsub, -, -⟩ := hcomputes.difference update.leg _ _ hholds hown hle
    refine ⟨delta, (writes_iff host).mpr ⟨hsound.named, hunseen, ⟨number, hread, hnumber⟩,
      hsound.nonneg, hle, hsub, ?_, ?_, ?_, ?_⟩⟩
    · rw [hdelivered.hedge.tolerance]
      refine hsound.assessed _ delta (hdelivered.hedge.target update.leg) ?_
      rw [hempty]
      exact fun hlate ↦ Bool.false_ne_true hlate.2
    all_goals simp [hempty, staleSequence, identityChanged]
  · have hprecedes := hlater newest hnewest.mem hnewest.leg
    have hle : (cycle.leg update.leg).cumulativeQuantity ≤ quantity update := by
      rw [hleg]
      exact hprecedes.quantity
    obtain ⟨delta, hsub, -, hzero⟩ := hcomputes.difference update.leg _ _ hholds hown hle
    refine ⟨delta, (writes_iff host).mpr ⟨hsound.named, hunseen, ⟨number, hread, hnumber⟩,
      hsound.nonneg, hle, hsub, ?_, ?_, ?_, ?_⟩⟩
    · rw [hdelivered.hedge.tolerance]
      refine hsound.assessed _ delta (hdelivered.hedge.target update.leg) ?_
      rintro ⟨hpositive, hterminal⟩
      rw [hleg] at hterminal
      have hsame := hpool.settled newest (hdone newest hnewest.mem) update hupdate hnewest.leg
        hprecedes hterminal
      refine absurd (hzero.mpr ?_) hpositive.ne'
      rw [hleg]
      exact hsame
    · rw [hleg, (staleSequence_of_precedes hfresh hprecedes).2]
      simp
    · rw [hleg, hfresh.leg update.leg]
      simp [settledLeg, LegExecutionState.written, identityChanged, hprecedes.orderId]
    · rw [hleg, hfresh.leg update.leg]
      simp [settledLeg, LegExecutionState.written, identityChanged, hprecedes.clientOrderId]

/-- One more delivery, of an update that was delivered before or not. -/
theorem delivered_step (hcomputes : Computes host start pool) :
    Returns host cycle update ∧
      Delivered host start (done ++ [update]) (step host cycle update) := by
  have hsounds : ∀ other ∈ done, Sound host start other := fun other hother ↦
    hpool.sound other (hdone other hother)
  suffices hafter : (∃ result, plan host cycle update = .ok result) ∧
      Delivered host start (done ++ [update]) (step host cycle update) by
    obtain ⟨⟨⟨print, effect⟩, hplan⟩, hnext⟩ := hafter
    have hall : ∀ other ∈ done ++ [update], other ∈ pool := by
      intro other hother
      rcases List.mem_append.mp hother with hother | hother
      · exact hdone other hother
      · rw [List.mem_singleton.mp hother]
        exact hupdate
    obtain ⟨mismatch, hmismatch⟩ := hcomputes.mismatch _ hnext.hedge (holds_of_delivered hall hnext)
    exact ⟨returns_of_plan hplan hmismatch, hnext⟩
  have hhedge := sameHedge_step host hdelivered.hedge update
  by_cases hmem : update ∈ done
  · obtain ⟨print, hplan⟩ := plan_of_mem hpool hdone hupdate hdelivered hmem
    have hstep : step host cycle update = cycle := step_of_plan hplan
    refine ⟨⟨_, hplan⟩, hhedge, legs_of_kept hdelivered (by rw [hstep]) ?_, fun eventId ↦ ?_, ?_⟩
    · rcases hdelivered.legs update.leg with ⟨hnone, -⟩ | ⟨newest, hnewest, -⟩
      · exact absurd rfl (hnone update hmem)
      · exact ⟨newest, hnewest, hnewest.latest update hmem rfl⟩
    · rw [hstep, hdelivered.seen, List.find?_append]
      cases hfind : done.find? fun other ↦ other.eventId = eventId with
      | none =>
        have hother := List.find?_eq_none.mp hfind update hmem
        simp only [decide_eq_true_eq] at hother
        simp [hother]
      | some other => rfl
    · rw [hstep]
      exact hdelivered.breaches
  · by_cases hlater : ∀ other ∈ done, other.leg = update.leg → Precedes host other update
    · obtain ⟨delta, print, hplan⟩ :=
        writes_of_newer hfresh hpool hdone hupdate hdelivered hcomputes hmem hlater
      have hwritten := apply_of_writes host ⟨print, hplan⟩
      refine ⟨⟨_, hplan⟩, hhedge, legs_of_written hdelivered hlater fun which ↦ ?_,
        fun eventId ↦ ?_, hwritten.2.1.trans hdelivered.breaches⟩
      · rw [step, hwritten.1 which]
        congr 1
        rcases hdelivered.legs update.leg with ⟨-, hleg⟩ | ⟨newest, hnewest, hleg⟩
        · rw [hleg]
          rfl
        · rw [hleg, written_settledLeg (hfresh.leg update.leg)
            (hlater newest hnewest.mem hnewest.leg)]
      · rw [← seen_of_see hdelivered hsounds (fingerprint_of_plan hplan), step_of_plan hplan]
        cases hleg : update.leg <;>
          simp [HedgeCycleState.after, HedgeCycleState.see, HedgeCycleState.setLeg, hleg]
    · obtain ⟨newest, hnewest, hleg, hprecedes⟩ : ∃ newest, Newest host done update.leg newest ∧
          cycle.leg update.leg = settledLeg host (start.leg update.leg) newest ∧
          Precedes host update newest := by
        rcases hdelivered.legs update.leg with ⟨hnone, -⟩ | ⟨newest, hnewest, hleg⟩
        · exact absurd (fun other hother hsame ↦ absurd hsame (hnone other hother)) hlater
        · refine ⟨newest, hnewest, hleg, ?_⟩
          rcases hpool.compared update hupdate newest (hdone newest hnewest.mem)
            hnewest.leg.symm with rfl | hprecedes | hconverse
          · exact absurd hnewest.mem hmem
          · exact hprecedes
          · refine absurd (fun other hother hsame ↦ ?_) hlater
            rcases hnewest.latest other hother hsame with rfl | hbefore
            · exact hconverse
            · exact hbefore.trans hconverse
      obtain ⟨print, hprint, hplan⟩ :=
        plan_of_precedes hfresh hpool hdone hupdate hdelivered hcomputes hmem hleg hprecedes
      have hstep : step host cycle update = cycle.see update.eventId print := step_of_plan hplan
      refine ⟨⟨_, hplan⟩, hhedge, legs_of_kept hdelivered ?_ ⟨newest, hnewest, Or.inr hprecedes⟩,
        fun eventId ↦ ?_, ?_⟩
      · rw [hstep]
        exact funext fun which ↦ by cases which <;> rfl
      · rw [hstep, seen_of_see hdelivered hsounds hprint]
      · rw [hstep]
        exact hdelivered.breaches

end Step

/-! ### Whole deliveries -/

theorem delivered_start {start : HedgeCycleState} (hfresh : Fresh start) :
    Delivered host start [] start where
  hedge := ⟨rfl, rfl, rfl, rfl, fun _ ↦ rfl⟩
  legs _ := Or.inl ⟨by simp, rfl⟩
  seen _ := by rw [hfresh.seen]; rfl
  breaches := hfresh.breaches

/-- Every call of a delivery returns, and the cycle knows what was delivered. -/
theorem delivered_run {start : HedgeCycleState} {pool delivery : List LegUpdate}
    (hfresh : Fresh start) (hpool : Pool host start pool) (hcomputes : Computes host start pool)
    (hdelivery : ∀ update ∈ delivery, update ∈ pool) :
    Along (step host) (Returns host) start delivery ∧
      Delivered host start delivery (run (step host) start delivery) := by
  induction delivery using List.reverseRecOn with
  | nil => exact ⟨trivial, delivered_start hfresh⟩
  | append_singleton done update ih =>
    have hdone : ∀ other ∈ done, other ∈ pool := fun other hother ↦
      hdelivery other (List.mem_append_left _ hother)
    obtain ⟨halong, hdelivered⟩ := ih hdone
    obtain ⟨hreturns, hnext⟩ :=
      delivered_step hfresh hpool hdone (hdelivery update (by simp)) hdelivered hcomputes
    rw [along_append, run_concat]
    exact ⟨⟨halong, hreturns, trivial⟩, hnext⟩

/-! ### The history in order -/

theorem Computes.of_subset {start : HedgeCycleState} {pool larger : List LegUpdate}
    (hcomputes : Computes host start larger) (hsubset : ∀ update ∈ pool, update ∈ larger) :
    Computes host start pool := by
  have hholds : ∀ {which held}, Holds start pool which held → Holds start larger which held := by
    rintro which held (hheld | ⟨update, hupdate, hleg⟩)
    · exact Or.inl hheld
    · exact Or.inr ⟨update, hsubset update hupdate, hleg⟩
  exact ⟨fun which held next hheld hnext ↦
      hcomputes.difference which held next (hholds hheld) (hholds hnext),
    fun cycle hhedge hheld ↦ hcomputes.mismatch cycle hhedge fun which ↦ hholds (hheld which)⟩

theorem unbreached_of_step {cycle : HedgeCycleState} {update : LegUpdate}
    (hclean : Unbreached (step host cycle update)) : Unbreached cycle := by
  refine ⟨List.eq_nil_iff_forall_not_mem.mpr fun breach hbreach ↦ ?_, fun which ↦
    breaches_nil_of_step host (hclean.2 which)⟩
  have hkept := mem_breaches_step host update hbreach
  rw [hclean.1] at hkept
  exact List.not_mem_nil hkept

/-- A new update that does not lower the quantity and carries no lower sequence is written, if the
call returns. -/
theorem applied_of_returns {cycle : HedgeCycleState} {update : LegUpdate}
    (hreturns : Returns host cycle update)
    (hunseen : cycle.seenEvents.lookup update.eventId = none)
    (hsequence : staleSequence (cycle.leg update.leg) update = false)
    (hgrown : ∀ number, update.cumulativeQuantity = .decimal number → 0 ≤ number.value →
      (cycle.leg update.leg).cumulativeQuantity ≤ number.value) :
    Applied host cycle update := by
  obtain ⟨transition, htransition⟩ := hreturns
  unfold HedgeCycleState.apply at htransition
  cases hplan : plan host cycle update with
  | error message =>
    rw [hplan] at htransition
    cases htransition
  | ok result =>
    obtain ⟨print, effect⟩ := result
    unfold plan at hplan
    simp only [hunseen, throw_bind, check_eq_ok, bind_eq_ok] at hplan
    obtain ⟨hnamed, found, -, number, hread, hnonneg, hrest⟩ := hplan
    have hle := hgrown number (Numeric.read_eq_ok.mp hread) (not_lt.mp hnonneg)
    rw [if_neg (not_lt.mpr hle)] at hrest
    obtain ⟨delta, hdelta, hrest⟩ := bind_eq_ok.mp hrest
    obtain ⟨⟨status, breaches⟩, hassess, hrest⟩ := bind_eq_ok.mp hrest
    simp only [hsequence, Bool.false_eq_true, false_and, if_false, check_eq_ok] at hrest
    exact ⟨number.value, delta, status, breaches, (writes_iff host).mpr ⟨hnamed, hunseen,
      ⟨number, hread, rfl⟩, not_lt.mp hnonneg, hle, hdelta, hassess, by simp [hsequence], hrest.1,
      hrest.2.1⟩⟩

theorem History.of_concat {history : List LegUpdate} {update : LegUpdate}
    (hhistory : History host (history ++ [update])) :
    History host history ∧ (∀ other ∈ history, other.eventId ≠ update.eventId) ∧
      ∀ other ∈ history, other.leg = update.leg → Precedes host other update := by
  have hevents := hhistory.events
  have hordered := hhistory.ordered
  rw [List.map_append, List.nodup_append] at hevents
  rw [List.pairwise_append] at hordered
  refine ⟨⟨hevents.1, hordered.1⟩, fun other hother ↦ ?_, fun other hother ↦ ?_⟩
  · exact hevents.2.2 _ (List.mem_map_of_mem hother) _ (by simp)
  · exact hordered.2.2 other hother update (by simp)

section Order

variable {start : HedgeCycleState} {done : List LegUpdate} {update : LegUpdate}
  (hfresh : Fresh start) (hpool : Pool host start done)
  (hcomputes : Computes host start (done ++ [update]))
  (hnew : ∀ other ∈ done, other.eventId ≠ update.eventId)
  (hlater : ∀ other ∈ done, other.leg = update.leg → Precedes host other update)
  (hreturns : Returns host (run (step host) start done) update)
  (hclean : Unbreached (step host (run (step host) start done) update))

include hfresh hpool hcomputes hnew hlater hreturns hclean

/-- The next update of the history is written with the status that it carries. -/
theorem writes_in_order :
    Delivered host start done (run (step host) start done) ∧
      ∃ number fillDelta, update.cumulativeQuantity = .decimal number ∧
        Writes host (run (step host) start done) update number.value fillDelta
          (legStatus host update.status) [] := by
  have hdelivered := (delivered_run hfresh hpool
    (hcomputes.of_subset fun _ ↦ List.mem_append_left _) fun _ h ↦ h).2
  refine ⟨hdelivered, ?_⟩
  have hunseen : (run (step host) start done).seenEvents.lookup update.eventId = none := by
    rw [hdelivered.seen, List.find?_eq_none.mpr, Option.bind_none]
    intro other hother hevent
    exact hnew other hother (of_decide_eq_true hevent)
  have happlied : Applied host (run (step host) start done) update := by
    rcases hdelivered.legs update.leg with ⟨-, hleg⟩ | ⟨newest, hnewest, hleg⟩
    · rw [hfresh.leg update.leg] at hleg
      refine applied_of_returns hreturns hunseen ?_ fun number _ hnonneg ↦ ?_
      · simp [hleg, staleSequence]
      · rw [hleg]
        exact hnonneg
    · have hprecedes := hlater newest hnewest.mem hnewest.leg
      refine applied_of_returns hreturns hunseen ?_ fun number hnumber _ ↦ ?_
      · rw [hleg]
        exact (staleSequence_of_precedes hfresh hprecedes).2
      · rw [hleg, ← quantity_of_decimal hnumber]
        exact hprecedes.quantity
  obtain ⟨cumulative, fillDelta, status, breaches, hwrites⟩ := happlied
  cases writes_nil_of_step host hwrites (hclean.2 update.leg)
  obtain ⟨-, rfl, -⟩ := writes_clean host hwrites
  obtain ⟨-, -, ⟨number, hread, rfl⟩, -⟩ := (writes_iff host).mp hwrites
  exact ⟨number, fillDelta, Numeric.read_eq_ok.mp hread, hwrites⟩

theorem pool_concat : Pool host start (done ++ [update]) := by
  obtain ⟨hdelivered, number, fillDelta, hnumber, hwrites⟩ :=
    writes_in_order hfresh hpool hcomputes hnew hlater hreturns hclean
  obtain ⟨hnamed, -, -, hnonneg, hgrown, hdelta, hassess, -⟩ := (writes_iff host).mp hwrites
  have hquantity := quantity_of_decimal hnumber
  have hsound : Sound host start update := by
    refine ⟨hnamed, ⟨number, hnumber⟩, by rw [hquantity]; exact hnonneg, ?_⟩
    intro state delta htarget hlate
    rw [hdelivered.hedge.tolerance] at hassess
    rw [hquantity]
    exact assess_congr host (htarget.trans (hdelivered.hedge.target update.leg).symm) hlate hassess
  -- nothing is added after a terminal update
  have hsettled : ∀ other ∈ done, other.leg = update.leg → terminal host other = true →
      quantity other = quantity update := by
    intro other hother hleg hterminal
    rcases hdelivered.legs update.leg with ⟨hnone, -⟩ | ⟨newest, hnewest, hheld⟩
    · exact absurd hleg (hnone other hother)
    · have hnewestTerminal : terminal host newest = true ∧ quantity other = quantity newest := by
        rcases hnewest.latest other hother hleg with rfl | hprecedes
        · exact ⟨hterminal, rfl⟩
        · exact ⟨hprecedes.terminal hterminal, hpool.settled other hother newest hnewest.mem
            (hleg.trans hnewest.leg.symm) hprecedes hterminal⟩
      obtain ⟨-, -, -, -, -, hlate, -⟩ := assess_nil host hassess
      rw [hheld] at hlate hdelta
      obtain ⟨delta, hsub, hpositive, hzero⟩ := hcomputes.difference update.leg (quantity newest)
        (quantity update) (Or.inr ⟨newest, List.mem_append_left _ hnewest.mem, hnewest.leg, rfl⟩)
        (Or.inr ⟨update, by simp, rfl, rfl⟩) (hlater newest hnewest.mem hnewest.leg).quantity
      rw [hquantity] at hsub hzero ⊢
      cases hdelta.symm.trans hsub
      rw [hnewestTerminal.2]
      refine hzero.mp (le_antisymm (not_lt.mp fun hlt ↦ ?_) hpositive)
      exact hlate ⟨hlt, hnewestTerminal.1⟩
  have hcases : ∀ other ∈ done ++ [update], other ∈ done ∨ other = update := by simp
  refine ⟨fun first hfirst second hsecond hevent ↦ ?_, fun first hfirst second hsecond hleg ↦ ?_,
    fun other hother ↦ ?_, fun first hfirst second hsecond hleg hprecedes hterminal ↦ ?_⟩
  · rcases hcases first hfirst with hold | rfl
    · rcases hcases second hsecond with hold' | rfl
      · exact hpool.events first hold second hold' hevent
      · exact absurd hevent (hnew first hold)
    · rcases hcases second hsecond with hold' | rfl
      · exact absurd hevent.symm (hnew second hold')
      · rfl
  · rcases hcases first hfirst with hold | rfl
    · rcases hcases second hsecond with hold' | rfl
      · exact hpool.compared first hold second hold' hleg
      · exact Or.inr (Or.inl (hlater first hold hleg))
    · rcases hcases second hsecond with hold' | rfl
      · exact Or.inr (Or.inr (hlater second hold' hleg.symm))
      · exact Or.inl rfl
  · rcases hcases other hother with hold | rfl
    · exact hpool.sound other hold
    · exact hsound
  · rcases hcases second hsecond with hold' | rfl
    · rcases hcases first hfirst with hold | rfl
      · exact hpool.settled first hold second hold' hleg hprecedes hterminal
      · exact absurd (hlater second hold' hleg.symm) hprecedes.asymm
    · rcases hcases first hfirst with hold | rfl
      · exact hsettled first hold hleg hterminal
      · rfl

end Order

/-- The updates of a history that raises nothing and breaches nothing can be delivered in any
order. -/
theorem pool_of_history {start : HedgeCycleState} {history : List LegUpdate}
    (hfresh : Fresh start) (hhistory : History host history)
    (hcomputes : Computes host start history)
    (hreturns : Along (step host) (Returns host) start history)
    (hclean : Unbreached (run (step host) start history)) : Pool host start history := by
  induction history using List.reverseRecOn with
  | nil => exact ⟨by simp, by simp, by simp, by simp⟩
  | append_singleton done update ih =>
    obtain ⟨hdone, hnew, hlater⟩ := hhistory.of_concat
    rw [along_append] at hreturns
    rw [run_concat] at hclean
    have hpool := ih hdone (hcomputes.of_subset fun _ ↦ List.mem_append_left _) hreturns.1
      (unbreached_of_step hclean)
    exact pool_concat hfresh hpool hcomputes hnew hlater hreturns.2.1 hclean

/-! ### Deliveries end alike -/

section Alike

variable {start first second : HedgeCycleState} {done other : List LegUpdate}
  (hfirst : Delivered host start done first) (hsecond : Delivered host start other second)
  (hsame : ∀ update, update ∈ other ↔ update ∈ done)

include hfirst hsecond hsame

theorem legs_alike (which : Leg) : second.leg which = first.leg which := by
  rcases hfirst.legs which with ⟨hnone, hleg⟩ | ⟨newest, hnewest, hleg⟩
  · rcases hsecond.legs which with ⟨-, hleg'⟩ | ⟨newest', hnewest', -⟩
    · rw [hleg, hleg']
    · exact absurd hnewest'.leg (hnone newest' ((hsame newest').mp hnewest'.mem))
  · rcases hsecond.legs which with ⟨hnone', -⟩ | ⟨newest', hnewest', hleg'⟩
    · exact absurd hnewest.leg (hnone' newest ((hsame newest).mpr hnewest.mem))
    · suffices hnewestSame : newest' = newest by rw [hleg, hleg', hnewestSame]
      rcases hnewest.latest newest' ((hsame newest').mp hnewest'.mem) hnewest'.leg with
        hequal | hprecedes
      · exact hequal
      · rcases hnewest'.latest newest ((hsame newest).mpr hnewest.mem) hnewest.leg with
          hequal | hconverse
        · exact hequal.symm
        · exact absurd hconverse hprecedes.asymm

/-- The same events are seen. -/
theorem seen_alike (hevents : ∀ update ∈ done, ∀ twin ∈ done, update.eventId = twin.eventId →
      update = twin) (eventId : String) :
    second.seenEvents.lookup eventId = first.seenEvents.lookup eventId := by
  rw [hfirst.seen, hsecond.seen]
  congr 1
  cases hfind : done.find? fun update ↦ update.eventId = eventId with
  | none =>
    rw [List.find?_eq_none] at hfind ⊢
    exact fun update hupdate ↦ hfind update ((hsame update).mp hupdate)
  | some update =>
    have hmem := List.mem_of_find?_eq_some hfind
    have hevent : update.eventId = eventId := by simpa using List.find?_some hfind
    have hsome : (other.find? fun update ↦ update.eventId = eventId).isSome := by
      rw [List.find?_isSome]
      exact ⟨update, (hsame update).mpr hmem, by simp [hevent]⟩
    obtain ⟨twin, htwin⟩ := Option.isSome_iff_exists.mp hsome
    have htwinEvent : twin.eventId = eventId := by simpa using List.find?_some htwin
    rw [htwin, hevents update hmem twin ((hsame twin).mp (List.mem_of_find?_eq_some htwin))
      (hevent.trans htwinEvent.symm)]

theorem safe_alike :
    second.safeToProjectComplete host = first.safeToProjectComplete host := by
  have hspot : second.spot = first.spot := legs_alike hfirst hsecond hsame .spot
  have hperp : second.perp = first.perp := legs_alike hfirst hsecond hsame .perp
  have hhedge := hfirst.hedge
  have hhedge' := hsecond.hedge
  simp only [HedgeCycleState.safeToProjectComplete, HedgeCycleState.verifiedTerminal,
    HedgeCycleState.hedged, HedgeCycleState.mismatchQuantity, HedgeCycleState.currentSpotQuantity,
    HedgeCycleState.currentPerpQuantity, hspot, hperp, hfirst.breaches, hsecond.breaches,
    hhedge.initialSpot, hhedge'.initialSpot, hhedge.initialPerp, hhedge'.initialPerp,
    hhedge.multiplier, hhedge'.multiplier, hhedge.tolerance, hhedge'.tolerance]

end Alike

/-- All deliveries of a history that raises nothing and breaches nothing in order do neither, and
end in the same legs, the same seen events and the same completion. Assumes: a cycle that has not
heard from the exchange, and arithmetic that computes the differences and mismatches of the
quantities of the history. -/
theorem leg_updates_commute {start : HedgeCycleState} (hfresh : Fresh start)
    {history : List LegUpdate} (hhistory : History host history)
    (hcomputes : Computes host start history)
    (hreturns : Along (step host) (Returns host) start history)
    (hclean : Unbreached (run (step host) start history)) {delivery : List LegUpdate}
    (hdelivery : ∀ update, update ∈ delivery ↔ update ∈ history) :
    let inOrder := run (step host) start history
    let delivered := run (step host) start delivery
    Along (step host) (Returns host) start delivery ∧ Unbreached delivered ∧
      delivered.leg = inOrder.leg ∧
      (∀ eventId, delivered.seenEvents.lookup eventId = inOrder.seenEvents.lookup eventId) ∧
      delivered.safeToProjectComplete host = inOrder.safeToProjectComplete host := by
  have hpool := pool_of_history hfresh hhistory hcomputes hreturns hclean
  obtain ⟨-, hordered⟩ := delivered_run hfresh hpool hcomputes fun _ h ↦ h
  obtain ⟨halong, hdelivered⟩ := delivered_run hfresh hpool hcomputes fun update hupdate ↦
    (hdelivery update).mp hupdate
  have hlegs := legs_alike hordered hdelivered hdelivery
  refine ⟨halong, ⟨hdelivered.breaches, fun which ↦ ?_⟩, funext hlegs,
    seen_alike hordered hdelivered hdelivery hpool.events,
    safe_alike hordered hdelivered hdelivery⟩
  rw [hlegs which]
  exact hclean.2 which

/-! ### Deliveries of small histories -/

/-- An update of a stream, with a quantity in thousandths. -/
def streamed (eventId : String) (leg : Leg) (status : LegStatus) (thousandths : ℕ) (sequence : ℤ) :
    LegUpdate where
  eventId
  leg
  status := .status status
  cumulativeQuantity := .decimal ⟨false, thousandths, -3⟩
  eventTimeMs := sequence
  sequence := some sequence
  exchangeVerified := true

def filledHistory : List LegUpdate :=
  [streamed "s1" .spot .working 0 1, streamed "p1" .perp .filled 1000 1,
    streamed "s2" .spot .filled 1000 2]

def filledDelivery : List LegUpdate :=
  [streamed "s2" .spot .filled 1000 2, streamed "p1" .perp .filled 1000 1,
    streamed "s2" .spot .filled 1000 2, streamed "s1" .spot .working 0 1]

theorem filledHistory_history : History snapshotHost filledHistory := by
  have hspot : Precedes snapshotHost (streamed "s1" .spot .working 0 1)
      (streamed "s2" .spot .filled 1000 2) :=
    ⟨⟨1, 2, rfl, rfl, by decide⟩, by decide, by decide +kernel, rfl, rfl, by decide⟩
  refine ⟨by decide, List.pairwise_cons.mpr ⟨fun other hother hleg ↦ ?_,
    List.pairwise_cons.mpr ⟨fun other hother hleg ↦ ?_, List.pairwise_singleton _ _⟩⟩⟩
  · rcases List.mem_pair.mp hother with rfl | rfl
    · cases hleg
    · exact hspot
  · rw [List.mem_singleton.mp hother] at hleg
    cases hleg

theorem leg_updates_commute_filled :
    let inOrder := run (step snapshotHost) snapshotCycle filledHistory
    let delivered := run (step snapshotHost) snapshotCycle filledDelivery
    inOrder.safeToProjectComplete snapshotHost = .ok true ∧ delivered.leg = inOrder.leg ∧
      delivered.safeToProjectComplete snapshotHost =
        inOrder.safeToProjectComplete snapshotHost := by
  intro inOrder delivered
  have hfresh : Fresh snapshotCycle := ⟨fun which ↦ by cases which <;> rfl, rfl, rfl⟩
  have hdelivery : ∀ update, update ∈ filledDelivery ↔ update ∈ filledHistory := by
    intro update
    simp only [filledDelivery, filledHistory, List.mem_cons, List.not_mem_nil]
    tauto
  obtain ⟨-, -, hlegs, -, hsafe⟩ := leg_updates_commute hfresh filledHistory_history
    (computes_exact snapshotHost rfl _ _) (by decide +kernel) (by decide +kernel) hdelivery
  exact ⟨by decide +kernel, hlegs, hsafe⟩

/-- A leg that has heard a later update already. -/
def resumedCycle : HedgeCycleState :=
  step snapshotHost snapshotCycle (streamed "s0" .spot .working 0 5)

def cancelledHistory : List LegUpdate :=
  [streamed "s1" .spot .partiallyFilled 300 1, streamed "s2" .spot .cancelled 300 2]

/-- Arithmetic with two decimal places. -/
def coarseHost : Host :=
  { snapshotHost with context := ⟨fun x ↦ .ok ((x * 100 + 1 / 2).floor / 100)⟩ }

def trickledHistory : List LegUpdate :=
  [streamed "s1" .spot .cancelled 0 1, streamed "s2" .spot .cancelled 4 2,
    streamed "s3" .spot .cancelled 8 3]

def trickledDelivery : List LegUpdate :=
  [streamed "s1" .spot .cancelled 0 1, streamed "s3" .spot .cancelled 8 3,
    streamed "s2" .spot .cancelled 4 2]

/-- On a leg that has heard a later update, the second update is dropped in order and written out of
order. Where two small differences vanish and their sum does not, an update adds to a terminal leg
only out of order. -/
theorem deliveries_differ :
    (History snapshotHost cancelledHistory ∧
      Along (step snapshotHost) (Returns snapshotHost) resumedCycle cancelledHistory ∧
      Unbreached (run (step snapshotHost) resumedCycle cancelledHistory) ∧
      (run (step snapshotHost) resumedCycle cancelledHistory).spot.status = .partiallyFilled ∧
      (run (step snapshotHost) resumedCycle cancelledHistory.reverse).spot.status =
        .cancelled) ∧
    History coarseHost trickledHistory ∧ trickledDelivery.Perm trickledHistory ∧
      Along (step coarseHost) (Returns coarseHost) snapshotCycle trickledHistory ∧
      Unbreached (run (step coarseHost) snapshotCycle trickledHistory) ∧
      ¬ Unbreached (run (step coarseHost) snapshotCycle trickledDelivery) := by
  have hcancelled : Precedes snapshotHost (streamed "s1" .spot .partiallyFilled 300 1)
      (streamed "s2" .spot .cancelled 300 2) :=
    ⟨⟨1, 2, rfl, rfl, by decide⟩, by decide, by decide +kernel, rfl, rfl, by decide⟩
  have hfirst : Precedes coarseHost (streamed "s1" .spot .cancelled 0 1)
      (streamed "s2" .spot .cancelled 4 2) :=
    ⟨⟨1, 2, rfl, rfl, by decide⟩, by decide, by decide +kernel, rfl, rfl, by decide⟩
  have hsecond : Precedes coarseHost (streamed "s2" .spot .cancelled 4 2)
      (streamed "s3" .spot .cancelled 8 3) :=
    ⟨⟨2, 3, rfl, rfl, by decide⟩, by decide, by decide +kernel, rfl, rfl, by decide⟩
  refine ⟨⟨⟨by decide, ?_⟩, by decide +kernel⟩, ⟨by decide, ?_⟩, by decide, by decide +kernel⟩
  · exact List.pairwise_pair.mpr fun _ ↦ hcancelled
  · refine List.pairwise_cons.mpr ⟨fun other hother _ ↦ ?_,
      List.pairwise_pair.mpr fun _ ↦ hsecond⟩
    rcases List.mem_pair.mp hother with rfl | rfl
    · exact hfirst
    · exact hfirst.trans hsecond

end Bongus.Hedge.Deliveries
