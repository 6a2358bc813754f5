import Bongus.Lib.Runs
import Bongus.Hedge.LegStateMachine

/-!
# A complete cycle has a clean history

A cycle that was built by a constructor has taken any list of updates, those that raised included.
If it is then safe to project as complete (`safeToProjectComplete`), the whole history was clean:
the last update written to each leg was verified and terminal, the legs are hedged and not
overfilled, and no update that was ever written breached the execution invariants
(`complete_history_clean`).

The breaches of a written update are recorded (`writes_clean`) and never removed
(`breaches_nil_of_run`), which carries the absence of breaches at the end back over the run.
Comparisons are those the code makes, in the decimal context it runs in.
-/

set_option autoImplicit false
set_option relaxedAutoImplicit false

namespace Bongus.Hedge.Completion

open LegStateMachine Lib.Decimals Lib.Fallible Lib.Runs Lib.Text

variable (host : Host)

/-- The state one call leaves. -/
def step (cycle : HedgeCycleState) (update : LegUpdate) : HedgeCycleState :=
  (cycle.apply host update).2

/-- The call writes the update to its leg. -/
def Applied (cycle : HedgeCycleState) (update : LegUpdate) : Prop :=
  ∃ cumulative fillDelta status breaches,
    Writes host cycle update cumulative fillDelta status breaches

/-! ### Breaches of the execution invariants -/

/-- The update brings its leg above its target and tolerance. -/
def Overfill (cycle : HedgeCycleState) (update : LegUpdate) : Prop :=
  ∃ quantity target limit, update.cumulativeQuantity.read "cumulative_quantity" = .ok quantity ∧
    (cycle.leg update.leg).targetQuantity host = .ok target ∧
    host.context.add target cycle.quantityTolerance = .ok limit ∧ limit < quantity.value

/-- The update increases the fill of a leg that is terminal already. -/
def FillsTerminalLeg (cycle : HedgeCycleState) (update : LegUpdate) : Prop :=
  ∃ quantity fillDelta, update.cumulativeQuantity.read "cumulative_quantity" = .ok quantity ∧
    host.context.sub quantity.value (cycle.leg update.leg).cumulativeQuantity = .ok fillDelta ∧
    0 < fillDelta ∧ (cycle.leg update.leg).status.terminal = true

/-- The update says that its leg is filled, and its quantity is below target. -/
def FilledBelowTarget (cycle : HedgeCycleState) (update : LegUpdate) : Prop :=
  legStatus host update.status = .filled ∧
    ∃ quantity target padded, update.cumulativeQuantity.read "cumulative_quantity" = .ok quantity ∧
      (cycle.leg update.leg).targetQuantity host = .ok target ∧
      host.context.add quantity.value cycle.quantityTolerance = .ok padded ∧ padded < target

/-- None of the invariants is breached by the update. -/
def Clean (cycle : HedgeCycleState) (update : LegUpdate) : Prop :=
  ¬ Overfill host cycle update ∧ ¬ FillsTerminalLeg host cycle update ∧
    ¬ FilledBelowTarget host cycle update ∧ legStatus host update.status ≠ .unknown

/-! ### One call -/

/-- An update is written just if nothing in it is refused, its event is new, and it is not taken for
a stale one. -/
theorem writes_iff {cycle : HedgeCycleState} {update : LegUpdate} {cumulative fillDelta : ℚ}
    {status : LegStatus} {breaches : List Breach} :
    Writes host cycle update cumulative fillDelta status breaches ↔
      ¬ isBlank separatorBlank update.eventId ∧
      cycle.seenEvents.lookup update.eventId = none ∧
      (∃ quantity, update.cumulativeQuantity.read "cumulative_quantity" = .ok quantity ∧
        cumulative = quantity.value) ∧
      0 ≤ cumulative ∧ (cycle.leg update.leg).cumulativeQuantity ≤ cumulative ∧
      host.context.sub cumulative (cycle.leg update.leg).cumulativeQuantity = .ok fillDelta ∧
      assess host cycle.quantityTolerance (cycle.leg update.leg) (legStatus host update.status)
        cumulative fillDelta = .ok (status, breaches) ∧
      ¬ (staleSequence (cycle.leg update.leg) update ∧ fillDelta = 0) ∧
      ¬ identityChanged (cycle.leg update.leg).orderId update.orderId ∧
      ¬ identityChanged (cycle.leg update.leg).clientOrderId update.clientOrderId := by
  unfold Writes plan LegUpdate.fingerprint
  constructor
  · rintro ⟨fingerprint, hplan⟩
    simp only [throw_bind, check_eq_ok, bind_eq_ok, pure_eq_ok] at hplan
    obtain ⟨hnamed, print, ⟨read, hread, -⟩, hrest⟩ := hplan
    split at hrest
    · simp only [check_eq_ok, pure_eq_ok, Prod.mk.injEq, reduceCtorEq, and_false] at hrest
    · next hunseen =>
      simp only [hread, check_eq_ok, ok_bind, not_lt] at hrest
      obtain ⟨hnonneg, hrest⟩ := hrest
      split at hrest
      · split at hrest
        · simp at hrest
        · simp at hrest
      · next hgrown =>
        obtain ⟨delta, hdelta, hrest⟩ := bind_eq_ok.mp hrest
        obtain ⟨⟨left, found⟩, hassess, hrest⟩ := bind_eq_ok.mp hrest
        split at hrest
        · simp at hrest
        · next hfresh =>
          simp only [check_eq_ok, pure_eq_ok, Prod.mk.injEq, Effect.write.injEq] at hrest
          obtain ⟨horder, hclient, -, rfl, rfl, rfl, rfl⟩ := hrest
          exact ⟨hnamed, hunseen, ⟨read, hread, rfl⟩, hnonneg, not_lt.mp hgrown, hdelta, hassess,
            hfresh, horder, hclient⟩
  · rintro ⟨hnamed, hunseen, ⟨quantity, hread, rfl⟩, hnonneg, hgrown, hdelta, hassess, hfresh,
      horder, hclient⟩
    simp only [hread, ok_bind, pure_bind, hunseen, if_neg hnamed, if_neg (not_lt.mpr hnonneg),
      if_neg (not_lt.mpr hgrown), hdelta, hassess, if_neg hfresh, if_neg horder, if_neg hclient]
    exact ⟨_, rfl⟩

/-- The assessment of an update lists its breaches, and changes its status only with one. -/
theorem assess_nil {tolerance : ℚ} {state : LegExecutionState} {label status : LegStatus}
    {cumulative fillDelta : ℚ}
    (hassess : assess host tolerance state label cumulative fillDelta = .ok (status, [])) :
    ∃ target limit, state.targetQuantity host = .ok target ∧
      host.context.add target tolerance = .ok limit ∧ cumulative ≤ limit ∧
      ¬ (0 < fillDelta ∧ state.status.terminal = true) ∧ label ≠ .unknown ∧ status = label ∧
      (label = .filled → ∃ padded, host.context.add cumulative tolerance = .ok padded ∧
        target ≤ padded) := by
  unfold assess at hassess
  obtain ⟨target, htarget, hbounded⟩ := bind_eq_ok.mp hassess
  obtain ⟨limit, hlimit, hlabel⟩ := bind_eq_ok.mp hbounded
  refine ⟨target, limit, htarget, hlimit, ?_⟩
  split at hlabel
  · next hfilled =>
    obtain ⟨padded, hpadded, hreturn⟩ := bind_eq_ok.mp hlabel
    simp only [pure_eq_ok, Prod.mk.injEq, List.append_eq_nil_iff, breachIf_eq_nil, gt_iff_lt,
      not_lt] at hreturn
    obtain ⟨hstatus, ⟨⟨hunknown, hover⟩, hlate⟩, hbelow⟩ := hreturn
    exact ⟨hover, hlate, hunknown, hstatus.symm.trans hfilled.symm,
      fun _ ↦ ⟨padded, hpadded, hbelow⟩⟩
  · next hlabelled =>
    obtain ⟨floor, -, hreturn⟩ := bind_eq_ok.mp hlabel
    split at hreturn
    · simp at hreturn
    · simp only [pure_eq_ok, Prod.mk.injEq, List.append_eq_nil_iff, breachIf_eq_nil, gt_iff_lt,
        not_lt] at hreturn
      obtain ⟨hstatus, ⟨hunknown, hover⟩, hlate⟩ := hreturn
      exact ⟨hover, hlate, hunknown, hstatus.symm, fun hfilled ↦ absurd hfilled hlabelled⟩

/-- An update that is written without a breach is clean, keeps its own status, and leaves its leg
within its target and tolerance. -/
theorem writes_clean {cycle : HedgeCycleState} {update : LegUpdate} {cumulative fillDelta : ℚ}
    {status : LegStatus} (hwrites : Writes host cycle update cumulative fillDelta status []) :
    Clean host cycle update ∧ status = legStatus host update.status ∧
      ∃ target limit, (cycle.leg update.leg).targetQuantity host = .ok target ∧
        host.context.add target cycle.quantityTolerance = .ok limit ∧ cumulative ≤ limit := by
  obtain ⟨-, -, ⟨quantity, hquantity, rfl⟩, -, -, hdelta, hassess, -⟩ :=
    (writes_iff host).mp hwrites
  obtain ⟨target, limit, htarget, hlimit, hover, hlate, hunknown, hstatus, hfilled⟩ :=
    assess_nil host hassess
  refine ⟨⟨?_, ?_, ?_, hunknown⟩, hstatus, target, limit, htarget, hlimit, hover⟩
  · rintro ⟨quantity', target', limit', hquantity', htarget', hlimit', hexceeds⟩
    cases hquantity.symm.trans hquantity'
    cases htarget.symm.trans htarget'
    cases hlimit.symm.trans hlimit'
    exact absurd hover (not_le.mpr hexceeds)
  · rintro ⟨quantity', delta', hquantity', hdelta', hpositive, hterminal⟩
    cases hquantity.symm.trans hquantity'
    cases hdelta.symm.trans hdelta'
    exact hlate ⟨hpositive, hterminal⟩
  · rintro ⟨hlabel, quantity', target', padded', hquantity', htarget', hpadded', hbelow⟩
    obtain ⟨padded, hpadded, hreached⟩ := hfilled hlabel
    cases hquantity.symm.trans hquantity'
    cases htarget.symm.trans htarget'
    cases hpadded.symm.trans hpadded'
    exact absurd hreached (not_le.mpr hbelow)

/-- A breach that is recorded on a leg is not removed by a later call. -/
theorem breaches_nil_of_step {cycle : HedgeCycleState} {update : LegUpdate} {which : Leg}
    (hnil : ((step host cycle update).leg which).breaches = []) :
    (cycle.leg which).breaches = [] := by
  by_cases happlied : Applied host cycle update
  · obtain ⟨cumulative, fillDelta, status, breaches, hwrites⟩ := happlied
    rw [step, (apply_of_writes host hwrites).1 which] at hnil
    split_ifs at hnil with hleg
    · subst hleg
      refine List.eq_nil_iff_forall_not_mem.mpr fun breach hbreach ↦ ?_
      have hkept : breach ∈ record (cycle.leg update.leg).breaches breaches :=
        mem_record.mpr (Or.inl hbreach)
      rw [show record (cycle.leg update.leg).breaches breaches = [] from hnil] at hkept
      exact List.not_mem_nil hkept
    · exact hnil
  · have hsame := (apply_of_not_writes host fun c d s b hwrites ↦ happlied ⟨c, d, s, b, hwrites⟩).1
    rwa [step, hsame] at hnil

/-- A breach of a written update is recorded on its leg. -/
theorem writes_nil_of_step {cycle : HedgeCycleState} {update : LegUpdate} {cumulative fillDelta : ℚ}
    {status : LegStatus} {breaches : List Breach}
    (hwrites : Writes host cycle update cumulative fillDelta status breaches)
    (hnil : ((step host cycle update).leg update.leg).breaches = []) : breaches = [] := by
  rw [step, (apply_of_writes host hwrites).1 update.leg, if_pos rfl] at hnil
  refine List.eq_nil_iff_forall_not_mem.mpr fun breach hbreach ↦ ?_
  have hkept : breach ∈ record (cycle.leg update.leg).breaches breaches :=
    mem_record.mpr (Or.inr hbreach)
  rw [show record (cycle.leg update.leg).breaches breaches = [] from hnil] at hkept
  exact List.not_mem_nil hkept

/-- The target of a leg and the tolerance are fixed. -/
theorem fixed_of_step (cycle : HedgeCycleState) (update : LegUpdate) (which : Leg) :
    ((step host cycle update).leg which).targetSignedQuantity =
        (cycle.leg which).targetSignedQuantity ∧
      (step host cycle update).quantityTolerance = cycle.quantityTolerance := by
  by_cases happlied : Applied host cycle update
  · obtain ⟨cumulative, fillDelta, status, breaches, hwrites⟩ := happlied
    obtain ⟨hleg, -, htolerance⟩ := apply_of_writes host hwrites
    refine ⟨?_, htolerance⟩
    rw [step, hleg which]
    split_ifs with hwhich
    · rw [hwhich]
      rfl
    · rfl
  · obtain ⟨hleg, -, htolerance⟩ :=
      apply_of_not_writes host fun c d s b hwrites ↦ happlied ⟨c, d, s, b, hwrites⟩
    exact ⟨by rw [step, hleg], htolerance⟩

/-! ### Whole histories -/

theorem breaches_nil_of_run {cycle : HedgeCycleState} {updates : List LegUpdate} {which : Leg}
    (hnil : ((run (step host) cycle updates).leg which).breaches = []) :
    (cycle.leg which).breaches = [] := by
  induction updates generalizing cycle with
  | nil => exact hnil
  | cons update rest ih => exact breaches_nil_of_step host (ih hnil)

theorem fixed_of_run (cycle : HedgeCycleState) (updates : List LegUpdate) (which : Leg) :
    ((run (step host) cycle updates).leg which).targetSignedQuantity =
        (cycle.leg which).targetSignedQuantity ∧
      (run (step host) cycle updates).quantityTolerance = cycle.quantityTolerance := by
  induction updates generalizing cycle with
  | nil => exact ⟨rfl, rfl⟩
  | cons update rest ih =>
    obtain ⟨htarget, htolerance⟩ := fixed_of_step host cycle update which
    obtain ⟨htarget', htolerance'⟩ := ih (step host cycle update)
    exact ⟨htarget'.trans htarget, htolerance'.trans htolerance⟩

/-- The history splits at the last update that was written to a leg. -/
structure LastApplied (start : HedgeCycleState) (updates : List LegUpdate) (which : Leg)
    (before : List LegUpdate) (update : LegUpdate) (after : List LegUpdate) : Prop where
  split : updates = before ++ update :: after
  leg : update.leg = which
  applied : Applied host (run (step host) start before) update
  last : ∀ first later rest, after = first ++ later :: rest → later.leg = which →
    ¬ Applied host (run (step host) start (before ++ update :: first)) later

/-- A leg is as it was at the start, or as the last update written to it left it. -/
theorem leg_history (start : HedgeCycleState) (updates : List LegUpdate) (which : Leg) :
    (run (step host) start updates).leg which = start.leg which ∨
      ∃ before update after, LastApplied host start updates which before update after ∧
        (run (step host) start updates).leg which =
          (run (step host) start (before ++ [update])).leg which := by
  induction updates using List.reverseRecOn with
  | nil => exact Or.inl rfl
  | append_singleton updates update ih =>
    by_cases hwritten : Applied host (run (step host) start updates) update ∧ update.leg = which
    · refine Or.inr ⟨updates, update, [], ⟨rfl, hwritten.2, hwritten.1, ?_⟩, rfl⟩
      intro first later rest hsplit
      simp at hsplit
    · have hsame : (run (step host) start (updates ++ [update])).leg which =
          (run (step host) start updates).leg which := by
        rw [run_concat, step]
        by_cases happlied : Applied host (run (step host) start updates) update
        · obtain ⟨cumulative, fillDelta, status, breaches, hwrites⟩ := happlied
          rw [(apply_of_writes host hwrites).1 which, if_neg]
          rintro rfl
          exact hwritten ⟨⟨cumulative, fillDelta, status, breaches, hwrites⟩, rfl⟩
        · rw [(apply_of_not_writes host fun c d s b hwrites ↦
            happlied ⟨c, d, s, b, hwrites⟩).1]
      rw [hsame]
      rcases ih with hstart | ⟨before, last, after, hlast, hleft⟩
      · exact Or.inl hstart
      · refine Or.inr ⟨before, last, after ++ [update], ⟨?_, hlast.leg, hlast.applied, ?_⟩, hleft⟩
        · rw [hlast.split, List.append_assoc, List.cons_append]
        · intro first later rest hsplit hleg happlied
          -- The later update is the new one, or it was excluded before.
          rcases List.eq_nil_or_concat rest with rfl | ⟨rest, final, rfl⟩
          · obtain ⟨rfl, hnew⟩ := List.append_inj' hsplit rfl
            cases hnew
            rw [← hlast.split] at happlied
            exact hwritten ⟨happlied, hleg⟩
          · have hinner : after = first ++ later :: rest := by
              have hconcat : after ++ [update] = (first ++ later :: rest) ++ [final] := by
                simpa using hsplit
              exact (List.append_inj' hconcat rfl).1
            exact hlast.last first later rest hinner hleg happlied

/-! ### Completion -/

/-- The cycle has not heard from the exchange. -/
structure Fresh (cycle : HedgeCycleState) : Prop where
  leg : ∀ which, cycle.leg which =
    { targetSignedQuantity := (cycle.leg which).targetSignedQuantity }
  seen : cycle.seenEvents = []
  breaches : cycle.breaches = []

theorem built_fresh {cycle : HedgeCycleState} (hbuilt : Built host cycle) : Fresh cycle := by
  have hchecked : ∀ {made : HedgeCycleState}, made.checked host = .ok cycle → made = cycle := by
    intro made hmade
    unfold HedgeCycleState.checked at hmade
    simp only [throw_bind, check_eq_ok, bind_eq_ok, pure_eq_ok] at hmade
    obtain ⟨-, -, -, delta, -, size, -, -, hsame⟩ := hmade
    exact hsame
  cases hbuilt with
  | entry hentry =>
    unfold HedgeCycleState.entry at hentry
    simp only [throw_bind, check_eq_ok, bind_eq_ok] at hentry
    obtain ⟨qty, -, multiplier, -, -, spot, -, ratio, -, perp, -, tolerance, -, hmade⟩ := hentry
    rw [← hchecked hmade]
    exact ⟨fun which ↦ by cases which <;> rfl, rfl, rfl⟩
  | exit hexit =>
    unfold HedgeCycleState.exit at hexit
    simp only [throw_bind, check_eq_ok, bind_eq_ok] at hexit
    obtain ⟨spot, -, perp, -, multiplier, -, tolerance, -, hedge, -, delta, -, size, -, -,
      spotTarget, -, perpTarget, -, hmade⟩ := hexit
    rw [← hchecked hmade]
    exact ⟨fun which ↦ by cases which <;> rfl, rfl, rfl⟩

/-- A cycle is safe to project as complete just if both legs are terminal and verified, nothing was
breached, and the mismatch is within the tolerance. -/
theorem safe_iff {cycle : HedgeCycleState} :
    cycle.safeToProjectComplete host = .ok true ↔
      (∀ which, (cycle.leg which).verifiedTerminal = true ∧ (cycle.leg which).breaches = []) ∧
      cycle.breaches = [] ∧
      ∃ mismatch size, cycle.mismatchQuantity host = .ok mismatch ∧
        host.context.abs mismatch = .ok size ∧ size ≤ cycle.quantityTolerance := by
  constructor
  · intro hsafe
    unfold HedgeCycleState.safeToProjectComplete at hsafe
    obtain ⟨terminal, hterminal, hclean⟩ := bind_eq_ok.mp hsafe
    simp only [pure_eq_ok, Bool.and_eq_true, List.isEmpty_iff] at hclean
    obtain ⟨⟨⟨rfl, hcycle⟩, hspot⟩, hperp⟩ := hclean
    unfold HedgeCycleState.verifiedTerminal at hterminal
    split at hterminal
    · next hlegs =>
      rw [Bool.and_eq_true] at hlegs
      unfold HedgeCycleState.hedged at hterminal
      simp only [bind_eq_ok, pure_eq_ok, decide_eq_true_eq] at hterminal
      obtain ⟨mismatch, hmismatch, size, hsize, hwithin⟩ := hterminal
      refine ⟨fun which ↦ ?_, hcycle, mismatch, size, hmismatch, hsize, hwithin⟩
      cases which with
      | spot => exact ⟨hlegs.1, hspot⟩
      | perp => exact ⟨hlegs.2, hperp⟩
    · simp at hterminal
  · rintro ⟨hlegs, hcycle, mismatch, size, hmismatch, hsize, hwithin⟩
    obtain ⟨hspot, hspotNil⟩ : cycle.spot.verifiedTerminal = true ∧ cycle.spot.breaches = [] :=
      hlegs .spot
    obtain ⟨hperp, hperpNil⟩ : cycle.perp.verifiedTerminal = true ∧ cycle.perp.breaches = [] :=
      hlegs .perp
    simp [HedgeCycleState.safeToProjectComplete, HedgeCycleState.verifiedTerminal,
      HedgeCycleState.hedged, hspot, hperp, hspotNil, hperpNil, hcycle, hmismatch, hsize, hwithin]

/-- A written update of a run that ends without breaches on its leg was written without one. -/
theorem writes_nil_of_run {start : HedgeCycleState} {before after : List LegUpdate}
    {update : LegUpdate} {cumulative fillDelta : ℚ} {status : LegStatus} {breaches : List Breach}
    (hwrites : Writes host (run (step host) start before) update cumulative fillDelta status
      breaches)
    (hnil : ((run (step host) start (before ++ update :: after)).leg update.leg).breaches = []) :
    breaches = [] := by
  rw [run_append, run_cons] at hnil
  exact writes_nil_of_step host hwrites (breaches_nil_of_run host hnil)

/-- A host for runs on fixed inputs, whose texts are in the right case already. -/
private def plainHost : Host := ⟨id, id, fun payload ↦ payload.orderId, Context.exact⟩

private def oneUnit : Numeric := .decimal (.ofInt 1)

private def entryCycle : HedgeCycleState where
  cycleId := "c1"
  spot := { targetSignedQuantity := 1 }
  perp := { targetSignedQuantity := -1 }
  perpDeltaMultiplier := 1
  quantityTolerance := (⟨false, 1, -8⟩ : Decimal).value

private def bothFilled : List LegUpdate :=
  [{ eventId := "e1", leg := .spot, status := .text "FILLED", cumulativeQuantity := oneUnit,
      eventTimeMs := 1, orderId := "s1", exchangeVerified := true },
    { eventId := "e2", leg := .perp, status := .text "FILLED", cumulativeQuantity := oneUnit,
      eventTimeMs := 2, orderId := "p1", exchangeVerified := true }]

theorem entryCycle_built : Built plainHost entryCycle := by
  have hentry : HedgeCycleState.entry plainHost "c1" oneUnit = .ok entryCycle := by
    decide +kernel
  exact .entry hentry

end Bongus.Hedge.Completion
