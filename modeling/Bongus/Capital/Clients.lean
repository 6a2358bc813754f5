import Bongus.Lib.Runs
import Bongus.Capital.ReservationBook

/-!
# Several clients on one reservation book

Any number of clients share the database of a `Book`. A transaction is one step, and so is a
statement outside a transaction, so a release takes two steps: the client reads the state of the
row and checks it (`releaseSelect`), and later its transaction moves the row
(`releaseTransition`). Between the two the client holds a `PendingRelease`, and the steps of other
clients may come in between.

`ReleaseLaw` is the law of the module docstring of the source: capital whose order may have reached
the exchange is released only by a call that carried a terminal proof. `release_law_iff` says for
which runs it holds: those in which no release without proof reaches its transaction while the row
is in flight. `release_law_serial` says that a client which is alone keeps the law.
-/

set_option autoImplicit false
set_option relaxedAutoImplicit false

namespace Bongus.Capital.Clients

open ReservationBook Lib.Decimals Lib.Runs

/-- The arguments of a release that has passed its first check. -/
structure PendingRelease where
  reservationId : String
  reason : String
  evidence : String
  exchangeTerminalProven : Bool

/-- The shared book, and the release each client is in the middle of. -/
structure System (Client : Type) where
  book : Book
  pending : Client → Option PendingRelease

/-- One atomic step of one client. -/
inductive Step (Client : Type) where
  | reserve (client : Client) (request : ReservationRequest) (capital : CapitalState)
      (policy : ReservationPolicy) (nowIso : String)
  | markDispatched (client : Client) (reservationId evidence : String)
  | markDeliveryUnknown (client : Client) (reservationId evidence : String)
  | releaseSelect (client : Client) (release : PendingRelease)
  | releaseTransition (client : Client)

def Step.client {Client : Type} : Step Client → Client
  | .reserve client .. => client
  | .markDispatched client .. => client
  | .markDeliveryUnknown client .. => client
  | .releaseSelect client _ => client
  | .releaseTransition client => client

variable {Client : Type}

/-- A client in the middle of a release makes no other call. -/
def System.whenIdle (system : System Client) (client : Client) (next : System Client) :
    System Client :=
  match system.pending client with
  | none => next
  | some _ => system

variable [DecidableEq Client] (host : Host)

/-- The effect of a step. The second half of a release that was not begun does nothing. -/
def step (system : System Client) : Step Client → System Client
  | .reserve client request capital policy nowIso => system.whenIdle client
    { system with book := (system.book.reserve host request capital policy nowIso).2 }
  | .markDispatched client id evidence => system.whenIdle client
    { system with book := (system.book.markDispatched id evidence).2 }
  | .markDeliveryUnknown client id evidence => system.whenIdle client
    { system with book := (system.book.markDeliveryUnknown id evidence).2 }
  | .releaseSelect client release => system.whenIdle client <|
    match system.book.releaseSelect release.reservationId release.exchangeTerminalProven with
    | .error _ => system
    | .ok () => { system with pending := Function.update system.pending client (some release) }
  | .releaseTransition client =>
    match system.pending client with
    | none => system
    | some release =>
      { book := (system.book.releaseTransition release.reservationId release.reason
          release.evidence release.exchangeTerminalProven).2
        pending := Function.update system.pending client none }

/-- The row may have an order at the exchange. -/
def InFlightAt (system : System Client) (id : String) : Prop :=
  ∃ state, system.book.stateOf id = some state ∧ state.InFlight

/-- The release a step is about to carry out. -/
def Step.Releases (system : System Client) (event : Step Client) (release : PendingRelease) :
    Prop :=
  event = .releaseTransition event.client ∧ system.pending event.client = some release

/-- In a run, a row that was ever in flight is taken to released only by a release that carried a
terminal proof. -/
def ReleaseLaw (start : System Client) (events : List (Step Client)) : Prop :=
  ∀ before event after id, events = before ++ event :: after →
    (∃ earlier, earlier <+: before ∧ InFlightAt (run (step host) start earlier) id) →
    (run (step host) start before).book.stateOf id ≠ some .released →
    (run (step host) start (before ++ [event])).book.stateOf id = some .released →
    ∃ release, event.Releases (run (step host) start before) release ∧
      release.reservationId = id ∧ release.exchangeTerminalProven = true

/-- A release without proof finds its row not in flight when its transaction begins. -/
def SafeRelease (system : System Client) (event : Step Client) : Prop :=
  ∀ release, event.Releases system release → release.exchangeTerminalProven = false →
    ¬ InFlightAt system release.reservationId

/-! ### What a step does to one row -/

/-- The moves of a row other than a release. -/
inductive Moves : Option ReservationState → Option ReservationState → Prop
  | stays (state : Option ReservationState) : Moves state state
  | admitted : Moves none (some .reserved)
  | expired : Moves (some .reserved) (some .released)
  | dispatched : Moves (some .reserved) (some .dispatched)
  | unknown {state : ReservationState} (hstate : state ≠ .released) :
      Moves (some state) (some .unknown)

omit [DecidableEq Client] in
theorem moves_whenIdle {system next : System Client} {client : Client} {id : String}
    (hnext : Moves (system.book.stateOf id) (next.book.stateOf id)) :
    Moves (system.book.stateOf id) ((system.whenIdle client next).book.stateOf id) := by
  unfold System.whenIdle
  split
  · exact hnext
  · exact .stays _

/-- Every step moves a row along `Moves`, or carries out a release of it. -/
theorem step_moves (system : System Client) (event : Step Client) (id : String) :
    Moves (system.book.stateOf id) ((step host system event).book.stateOf id) ∨
      ∃ release, event.Releases system release ∧ release.reservationId = id := by
  cases event with
  | reserve client request capital policy nowIso =>
    refine Or.inl (moves_whenIdle ?_)
    rcases stateOf_reserve host system.book request capital policy nowIso id with
      hsame | ⟨hbefore, hafter⟩ | ⟨hbefore, hafter⟩
    · rw [hsame]
      exact .stays _
    · rw [hbefore, hafter]
      exact .expired
    · rw [hbefore, hafter]
      exact .admitted
  | markDispatched client target evidence =>
    refine Or.inl (moves_whenIdle ?_)
    rw [Book.markDispatched, stateOf_transition]
    split_ifs with hmoved
    · obtain ⟨rfl, prior, hprior, hstate⟩ := hmoved
      rw [hstate, List.mem_singleton.mp hprior]
      exact .dispatched
    · exact .stays _
  | markDeliveryUnknown client target evidence =>
    refine Or.inl (moves_whenIdle ?_)
    rw [Book.markDeliveryUnknown, stateOf_transition]
    split_ifs with hmoved
    · obtain ⟨rfl, prior, hprior, hstate⟩ := hmoved
      rw [hstate]
      exact .unknown (by rintro rfl; simp at hprior)
    · exact .stays _
  | releaseSelect client release =>
    refine Or.inl (moves_whenIdle ?_)
    split
    · exact .stays _
    · exact .stays _
  | releaseTransition client =>
    cases hpending : system.pending client with
    | none => exact Or.inl (by simpa [step, hpending] using Moves.stays _)
    | some release =>
      by_cases hid : release.reservationId = id
      · exact Or.inr ⟨release, ⟨rfl, hpending⟩, hid⟩
      · refine Or.inl ?_
        simp only [step, hpending, Book.releaseTransition]
        rw [stateOf_transition, if_neg fun h ↦ hid h.1.symm]
        exact .stays _

/-- The second half of a release moves its row to released, unless there is no such row. -/
theorem step_of_releases {system : System Client} {event : Step Client} {release : PendingRelease}
    (hrelease : event.Releases system release) (id : String) :
    (step host system event).book.stateOf id =
      if id = release.reservationId ∧ (system.book.stateOf id).isSome then some .released
      else system.book.stateOf id := by
  obtain ⟨hevent, hpending⟩ := hrelease
  rw [hevent]
  simp only [step, hpending, Book.releaseTransition]
  rw [stateOf_transition]
  by_cases hid : id = release.reservationId
  · subst hid
    cases hstate : system.book.stateOf release.reservationId with
    | none => simp
    | some state => cases state <;> simp
  · simp [hid]

/-! ### Rows that were sent -/

/-- The row is in flight, or it was and has been released. -/
def Sent (system : System Client) (id : String) : Prop :=
  InFlightAt system id ∨ system.book.stateOf id = some .released

theorem moves_of_inFlight {state : ReservationState} {after : Option ReservationState}
    (hflight : state.InFlight) (hmoves : Moves (some state) after) :
    ∃ next, after = some next ∧ next.InFlight := by
  cases hmoves with
  | stays => exact ⟨state, rfl, hflight⟩
  | expired => rcases hflight with h | h <;> cases h
  | dispatched => exact ⟨_, rfl, Or.inl rfl⟩
  | unknown => exact ⟨_, rfl, Or.inr rfl⟩

theorem moves_of_released {after : Option ReservationState}
    (hmoves : Moves (some .released) after) : after = some .released := by
  cases hmoves with
  | stays => rfl
  | unknown hstate => exact absurd rfl hstate

theorem sent_step (id : String) (system : System Client) (event : Step Client)
    (hsent : Sent system id) : Sent (step host system event) id := by
  rcases step_moves host system event id with hmoves | ⟨release, hrelease, hid⟩
  · rcases hsent with ⟨state, hstate, hflight⟩ | hreleased
    · rw [hstate] at hmoves
      exact Or.inl (moves_of_inFlight hflight hmoves)
    · rw [hreleased] at hmoves
      exact Or.inr (moves_of_released hmoves)
  · have hsome : (system.book.stateOf id).isSome := by
      rcases hsent with ⟨state, hstate, -⟩ | hreleased
      · simp [hstate]
      · simp [hreleased]
    exact Or.inr (by simp [step_of_releases host hrelease, hid, hsome])

/-- A row that was in flight at an earlier point of a run stays sent. -/
theorem sent_of_earlier {start : System Client} {earlier before : List (Step Client)} {id : String}
    (hearlier : earlier <+: before) (hflight : InFlightAt (run (step host) start earlier) id) :
    Sent (run (step host) start before) id := by
  obtain ⟨rest, rfl⟩ := hearlier
  rw [run_append]
  exact invariant_run (Sent · id) (Or.inl hflight) (sent_step host id) rest

/-! ### The release law -/

/-- The transaction of a release takes a row in flight to released. -/
theorem released_of_releases {system : System Client} {event : Step Client}
    {release : PendingRelease} (hrelease : event.Releases system release)
    (hflight : InFlightAt system release.reservationId) :
    (step host system event).book.stateOf release.reservationId = some .released := by
  obtain ⟨state, hstate, -⟩ := hflight
  rw [step_of_releases host hrelease]
  simp [hstate]

omit [DecidableEq Client] in
theorem not_released_of_inFlightAt {system : System Client} {id : String}
    (hflight : InFlightAt system id) : system.book.stateOf id ≠ some .released := by
  obtain ⟨state, hstate, hflight⟩ := hflight
  rw [hstate]
  rcases hflight with rfl | rfl
  · simp
  · simp

/-- A step that takes a row in flight to released carries out a release of it. -/
theorem releases_of_released {system : System Client} {event : Step Client} {id : String}
    (hflight : InFlightAt system id)
    (hreleased : (step host system event).book.stateOf id = some .released) :
    ∃ release, event.Releases system release ∧ release.reservationId = id := by
  rcases step_moves host system event id with hmoves | hrelease
  · obtain ⟨state, hstate, hstateFlight⟩ := hflight
    rw [hstate] at hmoves
    have hnext : InFlightAt (step host system event) id := moves_of_inFlight hstateFlight hmoves
    exact absurd hreleased (not_released_of_inFlightAt hnext)
  · exact hrelease

theorem release_law_of_safe {start : System Client} {events : List (Step Client)}
    (hsafe : Along (step host) SafeRelease start events) : ReleaseLaw host start events := by
  rw [along_iff] at hsafe
  rintro before event after id hsplit ⟨earlier, hearlier, hflight⟩ hbefore hafter
  have hinFlight : InFlightAt (run (step host) start before) id :=
    (sent_of_earlier host hearlier hflight).resolve_right hbefore
  rw [run_concat] at hafter
  obtain ⟨release, hrelease, hid⟩ := releases_of_released host hinFlight hafter
  refine ⟨release, hrelease, hid, ?_⟩
  by_contra hunproven
  exact hsafe before event after hsplit release hrelease (by simpa using hunproven)
    (hid ▸ hinFlight)

/-- The release law holds in exactly the runs in which every release without proof finds its row
not in flight when its transaction begins. -/
theorem release_law_iff (start : System Client) (events : List (Step Client)) :
    ReleaseLaw host start events ↔ Along (step host) SafeRelease start events := by
  refine ⟨fun hlaw ↦ (along_iff start events).mpr ?_, release_law_of_safe host⟩
  intro before event after hsplit release hrelease hunproven hflight
  have hafter : (run (step host) start (before ++ [event])).book.stateOf release.reservationId =
      some .released := by
    rw [run_concat]
    exact released_of_releases host hrelease hflight
  obtain ⟨carried, hcarried, -, hproven⟩ := hlaw before event after release.reservationId hsplit
    ⟨before, List.prefix_rfl, hflight⟩ (not_released_of_inFlightAt hflight) hafter
  have hsame : carried = release := Option.some.inj (hcarried.2.symm.trans hrelease.2)
  rw [hsame, hunproven] at hproven
  cases hproven

/-! ### A release overtaken by a dispatch -/

section Overtaken

/-- A host for runs on fixed inputs. The texts of the run are in upper case already. -/
private def plainHost : Host := ⟨id, fun request ↦ request.reservationId, Context.exact⟩

private def usd (amount : ℤ) : Numeric := .decimal (.ofInt amount)

private def btcEntry : ReservationRequest where
  reservationId := "r1"
  purpose := .entry
  symbol := "BTCUSDT"
  cycleId := "c1"
  spotCashUsd := usd 100
  futuresMarginUsd := usd 20
  feesUsd := usd 1
  pairGrossIncrementUsd := usd 200
  configVersion := "v1"

/-- The first client reserves. The second begins to release the row without proof, and before its
transaction the first client sends the order. -/
private def overtakenRelease : List (Step Bool) :=
  [.reserve false btcEntry
      { equityUsd := usd 1000, spotCashAvailableUsd := usd 1000,
        futuresMarginAvailableUsd := usd 1000, currentPairGrossUsd := usd 0,
        maxPairGrossUsd := usd 1000 }
      { repairReserveUsd := usd 10, exitReserveUsd := usd 10,
        minimumLiquidationBufferUsd := usd 10 }
      "2026-01-01T00:00:00+00:00",
    .releaseSelect true ⟨"r1", "cancelled", "\x7b\x7d", false⟩,
    .markDispatched false "r1" "\x7b\x7d",
    .releaseTransition true]

/-- The release law fails: the row is in flight when the release without proof takes it. -/
theorem release_overtaken_by_dispatch :
    ¬ ReleaseLaw plainHost ⟨Book.empty, fun _ ↦ none⟩ overtakenRelease := by
  intro hlaw
  have hflight : InFlightAt (run (step plainHost) ⟨Book.empty, fun _ ↦ none⟩
      (overtakenRelease.take 3)) "r1" := ⟨.dispatched, by decide +kernel, Or.inl rfl⟩
  obtain ⟨release, hrelease, -, hproven⟩ := hlaw (overtakenRelease.take 3)
    (.releaseTransition true) [] "r1" rfl ⟨_, List.prefix_rfl, hflight⟩
    (not_released_of_inFlightAt hflight) (by decide +kernel)
  have hpending : ((run (step plainHost) ⟨Book.empty, fun _ ↦ none⟩
      (overtakenRelease.take 3)).pending true).map (·.exchangeTerminalProven) = some false := by
    decide +kernel
  have hcarried := hrelease.2
  simp only [Step.client] at hcarried
  rw [hcarried, Option.map_some, hproven] at hpending
  cases hpending

end Overtaken

/-! ### One client alone -/

/-- The release a client is in the middle of would still pass its first check. -/
def CheckHolds (client : Client) (system : System Client) : Prop :=
  ∀ release, system.pending client = some release →
    system.book.releaseSelect release.reservationId release.exchangeTerminalProven = .ok ()

theorem releaseSelect_ok {book : Book} {id : String} {proven : Bool}
    (hcheck : book.releaseSelect id proven = .ok ()) (hunproven : proven = false) :
    ¬ ∃ state, book.stateOf id = some state ∧ state.InFlight := by
  rintro ⟨state, hstate, hflight⟩
  simp [Book.releaseSelect, hstate, hflight, hunproven] at hcheck

omit [DecidableEq Client] in
theorem checkHolds_whenIdle {client : Client} {system next : System Client}
    (hcheck : CheckHolds client system)
    (hnext : system.pending client = none → CheckHolds client next) :
    CheckHolds client (system.whenIdle client next) := by
  unfold System.whenIdle
  split
  · next hidle => exact hnext hidle
  · exact hcheck

/-- Its own steps do not take the check away: between the two halves of a release it makes none. -/
theorem checkHolds_step (client : Client) (system : System Client) (event : Step Client)
    (hcheck : CheckHolds client system) (hclient : event.client = client) :
    CheckHolds client (step host system event) := by
  subst hclient
  cases event with
  | reserve | markDispatched | markDeliveryUnknown =>
    refine checkHolds_whenIdle hcheck fun hidle release hrelease ↦ ?_
    cases hidle.symm.trans hrelease
  | releaseSelect client release =>
    refine checkHolds_whenIdle hcheck fun hidle next hnext ↦ ?_
    split at hnext
    · cases hidle.symm.trans hnext
    · next hok =>
      have hsame : release = next := by simpa [Step.client] using hnext
      rw [← hsame, hok]
  | releaseTransition client =>
    intro next hnext
    cases hpending : system.pending client with
    | none => simp [step, hpending, Step.client] at hnext
    | some release => simp [step, hpending, Step.client] at hnext

/-- A run of one client that starts outside a release keeps the release law. -/
theorem release_law_serial (client : Client) (start : System Client)
    (hidle : start.pending client = none) (events : List (Step Client))
    (hclient : ∀ event ∈ events, event.client = client) : ReleaseLaw host start events := by
  refine release_law_of_safe host ((along_iff start events).mpr ?_)
  rintro before event after rfl release hrelease hunproven
  have hcheck : CheckHolds client (run (step host) start before) := by
    refine invariant_run_of_along (CheckHolds client) (fun release hrelease ↦ ?_)
      (checkHolds_step host client) ((along_iff start before).mpr fun first taken rest hsplit ↦ ?_)
    · cases hidle.symm.trans hrelease
    · exact hclient taken (by simp [hsplit])
  exact releaseSelect_ok (hcheck release (hclient event (by simp) ▸ hrelease.2)) hunproven

end Bongus.Capital.Clients
