import Bongus.Lifecycle.SplitStore

/-!
# Crashes between the commits of the split store

A lifecycle call of the split store commits the audit database and then the state database. A crash
can come before the first commit, between the two or after the second, and the caller delivers the
call again after the restart. What was committed stays and nothing else does.

The second delivery finds its event in the journal, so that it adds neither an event nor a trade,
and projects the same rows again, which changes nothing if they were there (`reflected_apply`). So
calls that are cut any number of times before they are delivered leave the store that they leave
without crashes, and whenever the state database has changed, the events that changed it are in the
journal (`crash_convergence`).
-/

set_option autoImplicit false
set_option relaxedAutoImplicit false

namespace Bongus.Lifecycle

open Lib.Dictionary Lib.Fallible Lib.Runs

variable {Value Cell Time : Type} [DecidableEq Cell]

/-! ### A second delivery -/

theorem tombstoned_tombstoned (intent : PendingIntent) (tombstone : Tombstone) :
    (intent.tombstoned tombstone).tombstoned tombstone = intent.tombstoned tombstone := by
  obtain ⟨state, watermark, status, deadline, tombstonedAt, reason, updatedAt⟩ := intent
  obtain ⟨target, newState, sequence, newStatus, newDeadline, observedAt, newReason⟩ := tombstone
  simp only [PendingIntent.tombstoned, Option.getD_some, PendingIntent.mk.injEq, true_and, and_true]
  constructor
  · cases sequence with
    | none => rfl
    | some sequence =>
      cases watermark with
      | none => simp
      | some watermark =>
        by_cases hlater : watermark < sequence
        · simp [hlater]
        · simp [hlater]
  · by_cases hreason : newReason = ""
    · simp [hreason]
    · simp [hreason]

/-- After a projection the state reflects it. -/
theorem reflected_apply (state : State Cell) (projection : Projection Cell) :
    projection.Reflected (state.apply projection) := by
  constructor
  · rw [apply_positions]
    rcases projection.position with ⟨key, row⟩ | key
    · exact (lookup_assign _ _ _ _).trans (if_pos rfl)
    · refine lookup_eq_none.mpr fun hkey ↦ ?_
      obtain ⟨entry, hentry, hsame⟩ := List.mem_map.mp hkey
      simpa [hsame] using (List.mem_filter.mp hentry).2
  · intro tombstone htombstone entry hentry htarget
    rw [apply_pendingIntents, htombstone] at hentry
    obtain ⟨before, -, rfl⟩ := List.mem_map.mp hentry
    by_cases hbefore : before.1 = tombstone.target
    · rw [if_pos hbefore]
      exact tombstoned_tombstoned before.2 tombstone
    · rw [if_neg hbefore] at htarget
      exact absurd htarget hbefore

section Evidence

variable (platform : Platform Value Cell Time)

/-- The event of the call is in the journal, with its content. -/
def Journalled (audit : Audit Cell) (call : Call Value) : Prop :=
  ∃ row payloadJson, audit.lifecycleEvents.lookup call.eventKey = some row ∧
    platform.dumps (call.canonical platform) = .ok payloadJson ∧
    row.contentHash = platform.sha256 payloadJson

theorem lookup_append_new {events : List (String × EventRow)} {key : String}
    (hnew : events.lookup key = none) (row : EventRow) :
    (events ++ [(key, row)]).lookup key = some row := by
  rw [List.lookup_append, hnew, lookup_cons_ite, if_pos rfl]
  rfl

omit [DecidableEq Cell] in
theorem claimLifecycleEvent_again {call : Call Value} {events journal : List (String × EventRow)}
    {inserted : Bool}
    (hclaim : claimLifecycleEvent platform call events = .ok (inserted, journal)) :
    claimLifecycleEvent platform call journal = .ok (false, journal) ∧
      (∃ row payloadJson, journal.lookup call.eventKey = some row ∧
        platform.dumps (call.canonical platform) = .ok payloadJson ∧
        row.contentHash = platform.sha256 payloadJson) ∧
      ∀ key row, events.lookup key = some row → journal.lookup key = some row := by
  unfold claimLifecycleEvent at hclaim
  simp only [throw_bind, check_eq_ok, bind_eq_ok] at hclaim
  obtain ⟨hkey, payloadJson, hdumps, hclaim⟩ := hclaim
  have hagain {row : EventRow} (hlookup : journal.lookup call.eventKey = some row)
      (hhash : row.contentHash = platform.sha256 payloadJson) :
      claimLifecycleEvent platform call journal = .ok (false, journal) := by
    unfold claimLifecycleEvent
    rw [if_neg hkey, hdumps, ok_bind, hlookup]
    exact if_neg (not_not_intro hhash)
  cases hlookup : events.lookup call.eventKey with
  | none =>
    rw [hlookup] at hclaim
    cases hclaim
    have hadded := lookup_append_new hlookup
    exact ⟨hagain (hadded _) rfl, ⟨_, payloadJson, hadded _, hdumps, rfl⟩,
      fun key row hrow ↦ by rw [List.lookup_append, hrow]; rfl⟩
  | some existing =>
    rw [hlookup] at hclaim
    simp only [check_eq_ok, pure_eq_ok] at hclaim
    obtain ⟨hhash, hclaim⟩ := hclaim
    cases hclaim
    rw [not_not] at hhash
    exact ⟨hagain hlookup hhash, ⟨existing, payloadJson, hlookup, hdumps, hhash⟩,
      fun key row hrow ↦ hrow⟩

omit [DecidableEq Cell] in
/-- Evidence that was recorded is known when it is recorded again, and nothing in the journal is
lost. -/
theorem recordEvidence_again {context : RuntimeContext} {call : Call Value}
    {audit after : Audit Cell} {inserted : Bool}
    (hrecord : recordEvidence platform context call audit = .ok (inserted, after)) :
    recordEvidence platform context call after = .ok (false, after) ∧
      Journalled platform after call ∧
      ∀ other, Journalled platform audit other → Journalled platform after other := by
  unfold recordEvidence at hrecord
  simp only [bind_eq_ok] at hrecord
  obtain ⟨⟨⟩, hcheck, ⟨claimed, events⟩, hclaim, hrecord⟩ := hrecord
  obtain ⟨hagain, hjournalled, hkept⟩ := claimLifecycleEvent_again platform hclaim
  have hevents : after.lifecycleEvents = events := by
    cases hchange : call.change with
    | exit trade =>
      cases claimed with
      | true =>
        simp only [hchange, bind_eq_ok, pure_eq_ok] at hrecord
        obtain ⟨row, -, hrecord⟩ := hrecord
        cases hrecord
        rfl
      | false =>
        simp only [hchange, pure_eq_ok] at hrecord
        cases hrecord
        rfl
    | entry fields =>
      simp only [hchange, pure_eq_ok] at hrecord
      cases hrecord
      rfl
    | partialExit fields =>
      simp only [hchange, pure_eq_ok] at hrecord
      cases hrecord
      rfl
  subst hevents
  refine ⟨?_, hjournalled, ?_⟩
  · unfold recordEvidence
    rw [hcheck, ok_bind, hagain, ok_bind]
    cases call.change <;> rfl
  · rintro other ⟨row, payloadJson, hrow, hother⟩
    exact ⟨row, payloadJson, hkept _ _ hrow, hother⟩

end Evidence

/-! ### Crashes -/

/-- Where a crash cuts a call. -/
inductive Cut where
  | beforeAudit
  | betweenCommits
  | afterState
deriving DecidableEq, Repr

/-- The store at some moment, and the calls whose projection was committed until then. -/
structure Moment (Value Cell : Type) where
  store : Store Cell
  projected : List (Call Value) := []

section Crashes

variable (platform : Platform Value Cell Time)

/-- The moments after the commits of a delivery that is cut or not. -/
def trail (moment : Moment Value Cell) (delivery : Call Value × Option Cut) :
    List (Moment Value Cell) :=
  match SplitStateWriter.commitAudit platform moment.store delivery.1, delivery.2 with
  | .error _, _ | .ok _, some .beforeAudit => []
  | .ok (_, evident), some .betweenCommits => [{ moment with store := evident }]
  | .ok (_, evident), _ =>
    match SplitStateWriter.commitState platform evident delivery.1 with
    | .error _ => [{ moment with store := evident }]
    | .ok projected => [{ moment with store := evident },
        { store := projected, projected := moment.projected ++ [delivery.1] }]

/-- What a delivery leaves. -/
def advance (moment : Moment Value Cell) (delivery : Call Value × Option Cut) :
    Moment Value Cell :=
  (trail platform moment delivery).getLast?.getD moment

/-- Each call is cut some number of times and then delivered. -/
def deliveries (schedule : List (Call Value × List Cut)) : List (Call Value × Option Cut) :=
  schedule.flatMap fun entry ↦ entry.2.map (fun cut ↦ (entry.1, some cut)) ++ [(entry.1, none)]

/-- The state after the projections of some calls. -/
def replay (state : State Cell) (calls : List (Call Value)) : State Cell :=
  calls.foldl (fun state call ↦ match projectionOf platform state.context call with
    | .ok projection => state.apply projection
    | .error _ => state) state

/-- The state is what journalled calls made of it. -/
def Documented (start : State Cell) (moment : Moment Value Cell) : Prop :=
  moment.store.state = replay platform start moment.projected ∧
    ∀ call ∈ moment.projected, Journalled platform moment.store.audit call

/-- A delivery that is not cut. -/
theorem advance_none (moment : Moment Value Cell) (call : Call Value) :
    (advance platform moment (call, none)).store =
      (SplitStateWriter.deliver platform moment.store call).2 := by
  rw [SplitStateWriter.deliver_eq, advance, trail, SplitStateWriter.project]
  cases SplitStateWriter.commitAudit platform moment.store call with
  | error raised => rfl
  | ok committed =>
    obtain ⟨inserted, evident⟩ := committed
    dsimp only
    cases SplitStateWriter.commitState platform evident call with
    | error raised => rfl
    | ok projected => rfl

omit [DecidableEq Cell] in
/-- An audit commit that is made again changes nothing. -/
theorem commitAudit_again {store evident : Store Cell} {call : Call Value} {inserted : Bool}
    (hcommit : SplitStateWriter.commitAudit platform store call = .ok (inserted, evident)) :
    SplitStateWriter.commitAudit platform evident call = .ok (false, evident) ∧
      evident.state = store.state ∧ Journalled platform evident.audit call ∧
      ∀ other, Journalled platform store.audit other → Journalled platform evident.audit other := by
  unfold SplitStateWriter.commitAudit at hcommit
  simp only [bind_eq_ok, pure_eq_ok] at hcommit
  obtain ⟨⟨recorded, audit⟩, hrecord, hcommit⟩ := hcommit
  cases hcommit
  obtain ⟨hagain, hjournalled, hkept⟩ := recordEvidence_again platform hrecord
  refine ⟨?_, rfl, hjournalled, hkept⟩
  rw [SplitStateWriter.commitAudit, hagain]
  rfl

/-- A state commit that is made again changes nothing, and neither does the audit commit before
it. -/
theorem commitState_again {evident projected : Store Cell} {call : Call Value}
    (hevident : SplitStateWriter.commitAudit platform evident call = .ok (false, evident))
    (hcommit : SplitStateWriter.commitState platform evident call = .ok projected) :
    SplitStateWriter.commitAudit platform projected call = .ok (false, projected) ∧
      SplitStateWriter.commitState platform projected call = .ok projected := by
  unfold SplitStateWriter.commitState at hcommit
  simp only [bind_eq_ok, pure_eq_ok] at hcommit
  obtain ⟨projection, hprojection, rfl⟩ := hcommit
  unfold SplitStateWriter.commitAudit SplitStateWriter.commitState at *
  simp only [bind_eq_ok, pure_eq_ok, Prod.mk.injEq] at hevident
  obtain ⟨⟨recorded, audit⟩, hrecord, rfl, haudit⟩ := hevident
  have hsame : audit = evident.audit := congrArg Store.audit haudit
  dsimp only
  rw [apply_context, hprojection, hrecord, hsame, ok_bind, ok_bind,
    (apply_eq_self_iff _ projection).mpr (reflected_apply evident.state projection)]
  exact ⟨rfl, rfl⟩

/-- A call that was cut and is delivered again leaves what it leaves without the cut. -/
theorem deliver_after_cut (moment : Moment Value Cell) (call : Call Value) (cut : Cut) :
    (SplitStateWriter.deliver platform (advance platform moment (call, some cut)).store call).2 =
      (SplitStateWriter.deliver platform moment.store call).2 := by
  simp only [SplitStateWriter.deliver_eq]
  cases hcommit : SplitStateWriter.commitAudit platform moment.store call with
  | error raised =>
    rw [advance, trail, hcommit]
    rfl
  | ok committed =>
    obtain ⟨inserted, evident⟩ := committed
    obtain ⟨hagain, -⟩ := commitAudit_again platform hcommit
    have hevident : (SplitStateWriter.project platform evident call).2 =
        (SplitStateWriter.project platform moment.store call).2 := by
      rw [SplitStateWriter.project, SplitStateWriter.project, hagain, hcommit]
      dsimp only
      cases SplitStateWriter.commitState platform evident call <;> rfl
    rw [advance, trail, hcommit]
    cases cut with
    | beforeAudit => rfl
    | betweenCommits => exact hevident
    | afterState =>
      dsimp only
      cases hprojected : SplitStateWriter.commitState platform evident call with
      | error raised => exact hevident
      | ok projected =>
        obtain ⟨haudit, hstate⟩ := commitState_again platform hagain hprojected
        change (SplitStateWriter.project platform projected call).2 = _
        rw [SplitStateWriter.project, haudit]
        dsimp only
        rw [hstate, SplitStateWriter.project, hcommit]
        dsimp only
        rw [hprojected]

theorem deliver_after_cuts (call : Call Value) (cuts : List Cut) (moment : Moment Value Cell) :
    (SplitStateWriter.deliver platform
        (run (advance platform) moment (cuts.map fun cut ↦ (call, some cut))).store call).2 =
      (SplitStateWriter.deliver platform moment.store call).2 := by
  induction cuts generalizing moment with
  | nil => rfl
  | cons cut rest ih =>
    rw [List.map_cons, run_cons, ih, deliver_after_cut]

/-- A projection that is committed after its event is documented. -/
theorem documented_commitState {start : State Cell} {moment : Moment Value Cell}
    (hdocumented : Documented platform start moment) {call : Call Value}
    (hjournalled : Journalled platform moment.store.audit call) {projected : Store Cell}
    (hcommit : SplitStateWriter.commitState platform moment.store call = .ok projected) :
    Documented platform start
      { store := projected, projected := moment.projected ++ [call] } := by
  unfold SplitStateWriter.commitState at hcommit
  simp only [bind_eq_ok, pure_eq_ok] at hcommit
  obtain ⟨projection, hprojection, rfl⟩ := hcommit
  constructor
  · change moment.store.state.apply projection = replay platform start (moment.projected ++ [call])
    rw [replay, List.foldl_append]
    change _ =
      match projectionOf platform (replay platform start moment.projected).context call with
      | .ok projection => (replay platform start moment.projected).apply projection
      | .error _ => replay platform start moment.projected
    rw [← hdocumented.1, hprojection]
  · intro other hother
    rcases List.mem_append.mp hother with hbefore | hnew
    · exact hdocumented.2 other hbefore
    · rw [List.mem_singleton.mp hnew]
      exact hjournalled

/-- Every moment of a delivery is documented. -/
theorem documented_trail {start : State Cell} {moment : Moment Value Cell}
    (hdocumented : Documented platform start moment) (delivery : Call Value × Option Cut) :
    ∀ later ∈ trail platform moment delivery, Documented platform start later := by
  obtain ⟨call, cut⟩ := delivery
  unfold trail
  cases hcommit : SplitStateWriter.commitAudit platform moment.store call with
  | error raised => simp
  | ok committed =>
    obtain ⟨inserted, evident⟩ := committed
    obtain ⟨-, hstate, hjournalled, hkept⟩ := commitAudit_again platform hcommit
    have hevident : Documented platform start { moment with store := evident } :=
      ⟨hstate.trans hdocumented.1, fun other hother ↦ hkept other (hdocumented.2 other hother)⟩
    have hcomplete : ∀ later ∈ (match SplitStateWriter.commitState platform evident call with
        | .error _ => [{ moment with store := evident }]
        | .ok projected => [{ moment with store := evident },
            { store := projected, projected := moment.projected ++ [call] }] :
              List (Moment Value Cell)), Documented platform start later := by
      intro later hlater
      cases hprojected : SplitStateWriter.commitState platform evident call with
      | error raised =>
        rw [hprojected] at hlater
        rw [List.mem_singleton.mp hlater]
        exact hevident
      | ok projected =>
        rw [hprojected] at hlater
        rcases List.mem_cons.mp hlater with rfl | hlater
        · exact hevident
        · rw [List.mem_singleton.mp hlater]
          exact documented_commitState platform hevident hjournalled hprojected
    cases cut with
    | none => exact hcomplete
    | some cut =>
      cases cut with
      | beforeAudit => simp
      | betweenCommits =>
        intro later hlater
        rw [List.mem_singleton.mp hlater]
        exact hevident
      | afterState => exact hcomplete

theorem documented_advance {start : State Cell} {moment : Moment Value Cell}
    (hdocumented : Documented platform start moment) (delivery : Call Value × Option Cut) :
    Documented platform start (advance platform moment delivery) := by
  unfold advance
  cases hlast : (trail platform moment delivery).getLast? with
  | none => exact hdocumented
  | some later =>
    exact documented_trail platform hdocumented delivery later (List.mem_of_getLast? hlast)

/-- Lifecycle calls that are cut by crashes and delivered again until they return leave the store
that they leave without crashes. At every moment the state is what journalled calls made of it. -/
theorem crash_convergence (platform : Platform Value Cell Time) (store : Store Cell)
    (schedule : List (Call Value × List Cut)) :
    (run (advance platform) { store := store } (deliveries schedule)).store =
        run (fun store call ↦ (SplitStateWriter.deliver platform store call).2) store
          (schedule.map Prod.fst) ∧
      ∀ before delivery after, deliveries schedule = before ++ delivery :: after →
        ∀ moment ∈ trail platform (run (advance platform) { store := store } before) delivery,
          Documented platform store.state moment := by
  constructor
  · suffices hall : ∀ moment : Moment Value Cell,
        (run (advance platform) moment (deliveries schedule)).store =
          run (fun store call ↦ (SplitStateWriter.deliver platform store call).2) moment.store
            (schedule.map Prod.fst) from hall { store := store }
    induction schedule with
    | nil => exact fun _ ↦ rfl
    | cons entry rest ih =>
      intro moment
      have hdeliveries : deliveries (entry :: rest) =
          (entry.2.map (fun cut ↦ (entry.1, some cut)) ++ [(entry.1, none)]) ++ deliveries rest :=
        rfl
      rw [hdeliveries, run_append, ih, run_concat, advance_none, deliver_after_cuts]
      rfl
  · intro before delivery after _
    have hstart : Documented platform store.state ({ store := store } : Moment Value Cell) :=
      ⟨rfl, nofun⟩
    exact documented_trail platform (invariant_run (Documented platform store.state) hstart
      (fun _ later hmoment ↦ documented_advance platform hmoment later) before) delivery

end Crashes

end Bongus.Lifecycle
