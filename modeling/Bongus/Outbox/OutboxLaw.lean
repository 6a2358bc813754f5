import Bongus.Lib.Runs
import Bongus.Outbox.CommandOutbox

/-!
# The law of the outbox

What a history of reservations, sends and acknowledgements leaves in the outbox. An intent keeps the
envelope that it got first, whatever is reserved under it later. The sequences of a producer are
counted without a hole, in the order in which its commands were first reserved, and neither a
refused nor a repeated reservation uses one. The state of a row follows the acknowledgements that
were accepted: it is the highest of them, in whatever order they came, and a final state stays.
`outbox_lawful` collects this for every history.
-/

set_option autoImplicit false
set_option relaxedAutoImplicit false

namespace Bongus.Outbox

open Ipc Lib.Fallible Lib.Records Lib.Runs

inductive OutboxEvent where
  | reserve (payload : Record) (producerId : String) (ttlMs createdAtMs : ℤ)
  | markSent (intentId : String)
  | markSendFailed (intentId reason : String)
  | acknowledge (event : Record)
  /-- A reservation in which the database raises, which rolls back what the call has done. -/
  | reserveRolledBack

/-- The outbox with what its callers were told: the envelopes that were returned for an intent, and
the acknowledgements that were accepted for it. -/
structure OutboxHistory where
  outbox : CommandOutbox := {}
  returned : List (String × Record) := []
  accepted : List (String × CommandState) := []

namespace OutboxHistory

variable (python : Python)

def step (history : OutboxHistory) : OutboxEvent → OutboxHistory
  | .reserve payload producerId ttlMs createdAtMs =>
    match history.outbox.reserveExecutionCommand python payload producerId ttlMs createdAtMs with
    | .ok (next, envelope) =>
      { history with
        outbox := next
        returned := history.returned ++ [(payloadIntentId payload, envelope)] }
    | .error _ => history
  | .markSent intentId =>
    { history with outbox := history.outbox.markExecutionCommandSent intentId }
  | .markSendFailed intentId reason =>
    { history with outbox := history.outbox.markExecutionCommandSendFailed intentId reason }
  | .acknowledge event =>
    match validateAck python event, history.outbox.applyExecutionCommandAck python event with
    | .ok ack, .ok (true, next) =>
      { history with outbox := next, accepted := history.accepted ++ [ack] }
    | _, _ => history
  | .reserveRolledBack => history

/-- The statuses that were accepted for an intent. -/
def acceptedFor (history : OutboxHistory) (intentId : String) : List CommandState :=
  (history.accepted.filter fun ack ↦ ack.1 = intentId).map Prod.snd

/-- The first occurrence of each entry of a list. -/
def firsts {α : Type} [DecidableEq α] (entries : List α) : List α :=
  entries.foldl (fun kept entry ↦ if entry ∈ kept then kept else kept ++ [entry]) []

theorem firsts_concat {α : Type} [DecidableEq α] (entries : List α) (entry : α) :
    firsts (entries ++ [entry]) =
      if entry ∈ firsts entries then firsts entries else firsts entries ++ [entry] := by
  rw [firsts, List.foldl_append]
  rfl

theorem mem_firsts {α : Type} [DecidableEq α] {entries : List α} {entry : α} :
    entry ∈ firsts entries ↔ entry ∈ entries := by
  induction entries using List.reverseRecOn with
  | nil => rfl
  | append_singleton before last ih =>
    rw [firsts_concat]
    split
    · rename_i hknown
      rw [ih, List.mem_append, List.mem_singleton]
      refine ⟨Or.inl, ?_⟩
      rintro (hbefore | rfl)
      · exact hbefore
      · exact ih.mp hknown
    · rw [List.mem_append, List.mem_append, ih]

end OutboxHistory

open OutboxHistory

/-! ### States and acknowledgements -/

/-- The state of a row that follows acknowledgements: none was accepted and it says what became of
the sends, or it is the one that ranks highest among them. -/
def FollowsAcks (accepted : List CommandState) (state : CommandState) : Prop :=
  (accepted = [] ∧ state ∈ [CommandState.ready, .sent, .sendFailed]) ∨
    (state ∈ accepted ∧
      ∀ status ∈ accepted, 2 ≤ status.rank ∧ (status ≠ state → status.rank < state.rank))

/-- The state of a row after an acknowledgement that is accepted. -/
def ackState (current status : CommandState) : CommandState :=
  if current.isFinal then current else if status.rank < current.rank then current else status

theorem rank_of_final {state : CommandState} (hfinal : state.isFinal = true) : state.rank = 5 := by
  cases state <;> first | rfl | cases hfinal

theorem rank_lt_of_not_final {state : CommandState} (hopen : state.isFinal = false) :
    state.rank < 5 := by
  cases state <;> first | decide | cases hopen

/-- Above the sends, states that are not final have ranks of their own. -/
theorem eq_of_rank_eq {first second : CommandState} (hrank : first.rank = second.rank)
    (hopen : first.isFinal = false) (habove : 2 ≤ second.rank) : first = second := by
  cases first <;> cases second <;>
    first
    | rfl
    | exact absurd hrank (by decide)
    | exact absurd habove (by decide)
    | cases hopen

theorem FollowsAcks.rank_le {accepted : List CommandState} {state : CommandState}
    (hfollows : FollowsAcks accepted state) :
    (accepted = [] ∧ state.rank ≤ 1) ∨ (state ∈ accepted ∧ 2 ≤ state.rank) := by
  rcases hfollows with ⟨hnone, hsends⟩ | ⟨hmember, hhighest⟩
  · refine Or.inl ⟨hnone, ?_⟩
    simp only [List.mem_cons, List.not_mem_nil, or_false] at hsends
    rcases hsends with rfl | rfl | rfl <;> decide
  · exact Or.inr ⟨hmember, (hhighest state hmember).1⟩

/-- An acknowledgement that is accepted keeps the state the highest. -/
theorem FollowsAcks.acknowledge {accepted : List CommandState} {current status : CommandState}
    (hfollows : FollowsAcks accepted current) (hstatus : 2 ≤ status.rank)
    (hagree : current.isFinal = true → status.isFinal = true → current = status) :
    FollowsAcks (accepted ++ [status]) (ackState current status) := by
  have hhighest : ∀ other ∈ accepted, 2 ≤ other.rank ∧
      (other ≠ current → other.rank < current.rank) := by
    intro other hother
    rcases hfollows with ⟨rfl, -⟩ | ⟨-, hall⟩
    · cases hother
    · exact hall other hother
  right
  unfold ackState
  split
  · -- A final state stays, and only the same final status is accepted with it.
    rename_i hfinal
    have hmember : current ∈ accepted := by
      rcases hfollows.rank_le with ⟨-, hlow⟩ | ⟨hmember, -⟩
      · rw [rank_of_final hfinal] at hlow
        exact absurd hlow (by decide)
      · exact hmember
    refine ⟨List.mem_append_left _ hmember, fun other hother ↦ ?_⟩
    rcases List.mem_append.mp hother with hbefore | hlast
    · exact hhighest other hbefore
    · rw [List.mem_singleton.mp hlast]
      refine ⟨hstatus, fun hne ↦ ?_⟩
      rw [rank_of_final hfinal]
      refine rank_lt_of_not_final (Bool.eq_false_iff.mpr fun hboth ↦ ?_)
      exact hne (hagree hfinal hboth).symm
  rename_i hopen
  split
  · -- An acknowledgement that is behind changes nothing.
    rename_i hbehind
    have hmember : current ∈ accepted := by
      rcases hfollows.rank_le with ⟨-, hlow⟩ | ⟨hmember, -⟩
      · omega
      · exact hmember
    refine ⟨List.mem_append_left _ hmember, fun other hother ↦ ?_⟩
    rcases List.mem_append.mp hother with hbefore | hlast
    · exact hhighest other hbefore
    · rw [List.mem_singleton.mp hlast]
      exact ⟨hstatus, fun _ ↦ hbehind⟩
  · rename_i hahead
    refine ⟨List.mem_append_right _ (List.mem_singleton_self _), fun other hother ↦ ?_⟩
    rcases List.mem_append.mp hother with hbefore | hlast
    · obtain ⟨habove, hlower⟩ := hhighest other hbefore
      refine ⟨habove, fun hne ↦ ?_⟩
      by_cases hcurrent : other = current
      · subst hcurrent
        refine lt_of_le_of_ne (not_lt.mp hahead) fun hrank ↦ hne ?_
        exact eq_of_rank_eq hrank (Bool.eq_false_iff.mpr hopen) hstatus
      · exact (hlower hcurrent).trans_le (not_lt.mp hahead)
    · rw [List.mem_singleton.mp hlast]
      exact ⟨hstatus, fun hne ↦ absurd rfl hne⟩

/-- What the sends do to a state: an acknowledged one is left. -/
theorem FollowsAcks.send {accepted : List CommandState} {state next : CommandState}
    (hfollows : FollowsAcks accepted state)
    (hnext : next = state ∨
      (state.rank ≤ 1 ∧ next ∈ [CommandState.ready, .sent, .sendFailed])) :
    FollowsAcks accepted next := by
  rcases hnext with rfl | ⟨hlow, hsends⟩
  · exact hfollows
  · rcases hfollows.rank_le with ⟨hnone, -⟩ | ⟨-, habove⟩
    · exact Or.inl ⟨hnone, hsends⟩
    · omega

/-- The accepted statuses decide the state, in whatever order they came. -/
theorem FollowsAcks.state_eq {accepted others : List CommandState} {state other : CommandState}
    (hfollows : FollowsAcks accepted state) (hother : FollowsAcks others other)
    (hsome : accepted ≠ []) (hsame : ∀ status, status ∈ accepted ↔ status ∈ others) :
    state = other := by
  rcases hfollows with ⟨hnone, -⟩ | ⟨hmember, hhighest⟩
  · exact absurd hnone hsome
  rcases hother with ⟨rfl, -⟩ | ⟨hotherMember, hotherHighest⟩
  · exact absurd ((hsame state).mp hmember) List.not_mem_nil
  by_contra hne
  have habove := (hotherHighest state ((hsame state).mp hmember)).2 hne
  have hbelow := (hhighest other ((hsame other).mpr hotherMember)).2 (Ne.symm hne)
  exact absurd habove hbelow.not_gt

/-! ### What a call does to the rows -/

namespace CommandOutbox

variable {python : Python} {outbox : CommandOutbox}

/-- A command that is reserved has a row already, or gets the next one of its producer. -/
theorem reserve_spec {payload envelope : Record} {producerId : String} {ttlMs createdAtMs : ℤ}
    {next : CommandOutbox}
    (hreserve : outbox.reserveExecutionCommand python payload producerId ttlMs createdAtMs =
      .ok (next, envelope)) :
    (next = outbox ∧ ∃ row ∈ outbox.rows, row.intentId = payloadIntentId payload ∧
        row.envelope = envelope) ∨
      ∃ row, next = ⟨outbox.rows ++ [row], Function.update outbox.lastSequence producerId
          (outbox.lastSequence producerId + 1)⟩ ∧
        row.intentId = payloadIntentId payload ∧ row.envelope = envelope ∧
        row.producerId = producerId ∧ row.sequence = outbox.lastSequence producerId + 1 ∧
        row.state = .ready ∧ (instruction envelope).sequence = some row.sequence ∧
        ∀ other ∈ outbox.rows, other.intentId ≠ row.intentId := by
  simp only [reserveExecutionCommand, throw_bind, check_eq_ok, bind_eq_ok] at hreserve
  obtain ⟨-, hash, -, hreserve⟩ := hreserve
  split at hreserve
  · rename_i existing hexisting
    simp only [check_eq_ok, pure_eq_ok] at hreserve
    obtain ⟨-, hresult⟩ := hreserve
    cases hresult
    have hid := List.find?_some hexisting
    exact Or.inl ⟨rfl, existing, List.mem_of_find?_eq_some hexisting, by simpa using hid, rfl⟩
  · rename_i habsent
    simp only [bind_eq_ok, pure_eq_ok] at hreserve
    obtain ⟨built, hbuilt, hresult⟩ := hreserve
    cases hresult
    obtain ⟨-, -, hsequence, -⟩ := identity_of_built hbuilt
    refine Or.inr ⟨_, rfl, rfl, rfl, rfl, rfl, rfl, by simpa using hsequence, ?_⟩
    intro other hother hsame
    exact List.find?_eq_none.mp habsent other hother (by simpa using hsame)

/-- The state of the row of an intent. -/
def stateOf (outbox : CommandOutbox) (intentId : String) : Option CommandState :=
  (outbox.row? intentId).map OutboxRow.state

theorem stateOf_concat {row : OutboxRow} {lastSequence : String → ℕ}
    (hfresh : ∀ other ∈ outbox.rows, other.intentId ≠ row.intentId) (intentId : String) :
    stateOf ⟨outbox.rows ++ [row], lastSequence⟩ intentId =
      if intentId = row.intentId then some row.state else outbox.stateOf intentId := by
  simp only [stateOf, row?, List.find?_append, List.find?_singleton]
  by_cases hid : intentId = row.intentId
  · have hnone : outbox.rows.find? (fun other ↦ other.intentId = intentId) = none :=
      List.find?_eq_none.mpr fun other hother ↦ by simpa [hid] using hfresh other hother
    simp [hnone, ← hid]
  · have hne : row.intentId ≠ intentId := fun hsame ↦ hid hsame.symm
    simp [hid, hne]

/-- An update moves the state of the row of its intent. -/
theorem stateOf_update {target : String} {change : OutboxRow → OutboxRow}
    (next : CommandState → CommandState) (hid : ∀ row, (change row).intentId = row.intentId)
    (hstate : ∀ row, (change row).state = next row.state) (intentId : String) :
    (outbox.update target change).stateOf intentId =
      if intentId = target then (outbox.stateOf intentId).map next
      else outbox.stateOf intentId := by
  simp only [stateOf, row?, update, List.find?_map, Option.map_map]
  have hsame : ((fun row : OutboxRow ↦ decide (row.intentId = intentId)) ∘ fun row ↦
      if row.intentId = target then change row else row) =
        fun row ↦ decide (row.intentId = intentId) := by
    funext row
    dsimp only [Function.comp_apply]
    split_ifs
    · rw [hid]
    · rfl
  rw [hsame]
  cases hfound : outbox.rows.find? fun row ↦ decide (row.intentId = intentId) with
  | none => simp
  | some row =>
    have hrow : row.intentId = intentId := by simpa using List.find?_some hfound
    simp only [Option.map_some, Function.comp_apply, hrow]
    split_ifs
    · rw [hstate]
    · rfl

/-- The status of an acknowledgement ranks above the sends. -/
theorem rank_of_ofAck {written : String} {status : CommandState}
    (hstatus : CommandState.ofAck written = some status) : 2 ≤ status.rank := by
  have hmember := List.mem_of_find?_eq_some hstatus
  simp only [List.mem_cons, List.not_mem_nil, or_false] at hmember
  rcases hmember with rfl | rfl | rfl | rfl | rfl <;> decide

theorem validateAck_rank {event : Record} {ack : String × CommandState}
    (hvalid : validateAck python event = .ok ack) : 2 ≤ ack.2.rank := by
  simp only [validateAck, throw_bind, check_eq_ok, bind_eq_ok] at hvalid
  obtain ⟨-, -, -, intentId, -, -, written, -, hvalid⟩ := hvalid
  split at hvalid
  · cases hvalid
  · rename_i status hstatus
    simp only [check_eq_ok, bind_eq_ok] at hvalid
    obtain ⟨ackHash, -, -, eventName, -, hvalid⟩ := hvalid
    have hresult : ack = (strip intentId, status) := by
      split at hvalid
      · obtain ⟨-, -, hvalid⟩ := bind_eq_ok.mp hvalid
        exact (pure_eq_ok.mp hvalid).symm
      · exact (pure_eq_ok.mp hvalid).symm
    rw [hresult]
    exact rank_of_ofAck hstatus

/-- An acknowledgement that is accepted moves the state of its intent, and is in no conflict with a
final one. -/
theorem applyAck_spec {event : Record} {ack : String × CommandState} {next : CommandOutbox}
    (hvalid : validateAck python event = .ok ack)
    (happly : outbox.applyExecutionCommandAck python event = .ok (true, next)) :
    ∃ current, outbox.stateOf ack.1 = some current ∧
      (current.isFinal = true → ack.2.isFinal = true → current = ack.2) ∧
      next.commands = outbox.commands ∧ next.lastSequence = outbox.lastSequence ∧
      ∀ intentId, next.stateOf intentId =
        if intentId = ack.1 then some (ackState current ack.2) else outbox.stateOf intentId := by
  simp only [applyExecutionCommandAck, hvalid, ok_bind] at happly
  split at happly
  · cases happly
  rename_i row hrow
  have hcurrent : outbox.stateOf ack.1 = some row.state := by rw [stateOf, hrow]; rfl
  have hsame : ∀ intentId, outbox.stateOf intentId =
      if intentId = ack.1 then some row.state else outbox.stateOf intentId := by
    intro intentId
    split_ifs with hid
    · rw [hid, hcurrent]
    · rfl
  simp only [throw_bind, check_eq_ok] at happly
  obtain ⟨-, happly⟩ := happly
  refine ⟨row.state, hcurrent, ?_⟩
  split at happly
  · rename_i hfinal
    simp only [check_eq_ok, pure_eq_ok] at happly
    obtain ⟨hagree, hresult⟩ := happly
    cases hresult
    refine ⟨fun _ hboth ↦ ?_, rfl, rfl, ?_⟩
    · by_contra hne
      exact hagree ⟨hboth, hne⟩
    · simpa only [ackState, hfinal, if_true] using hsame
  rename_i hopen
  refine ⟨fun hfinal ↦ absurd hfinal hopen, ?_⟩
  split at happly
  · rename_i hbehind
    cases happly
    refine ⟨rfl, rfl, ?_⟩
    simpa only [ackState, if_neg hopen, if_pos hbehind] using hsame
  · rename_i hahead
    cases happly
    refine ⟨commands_update _ fun _ ↦ rfl, rfl, fun intentId ↦ ?_⟩
    refine (stateOf_update (fun _ ↦ ack.2) ?_ ?_ intentId).trans ?_
    · intro row
      rfl
    · intro row
      rfl
    · split_ifs with hid
      · rw [hid, hcurrent, ackState, if_neg hopen, if_neg hahead]
        rfl
      · rfl

/-- A mark of a send leaves an acknowledged state, and turns any other into one of a send. -/
theorem stateOf_mark {target : String} {change : OutboxRow → OutboxRow}
    (next : CommandState → CommandState) (hid : ∀ row, (change row).intentId = row.intentId)
    (hstate : ∀ row, (change row).state = next row.state)
    (hnext : ∀ state, next state = state ∨
      (state.rank ≤ 1 ∧ next state ∈ [CommandState.ready, .sent, .sendFailed]))
    (intentId : String) :
    (outbox.update target change).stateOf intentId = outbox.stateOf intentId ∨
      ∃ state later, outbox.stateOf intentId = some state ∧ state.rank ≤ 1 ∧
        later ∈ [CommandState.ready, .sent, .sendFailed] ∧
        (outbox.update target change).stateOf intentId = some later := by
  rw [stateOf_update next hid hstate intentId]
  split_ifs
  · cases hbefore : outbox.stateOf intentId with
    | none => exact Or.inl rfl
    | some state =>
      rcases hnext state with hsame | ⟨hlow, hsends⟩
      · exact Or.inl (congrArg some hsame)
      · exact Or.inr ⟨state, next state, rfl, hlow, hsends, rfl⟩
  · exact Or.inl rfl

end CommandOutbox

/-! ### One step -/

/-- What a step does to the statuses that were accepted for an intent, and to its state. -/
inductive Moves (accepted : List CommandState) :
    Option CommandState → List CommandState → Option CommandState → Prop
  | stay (state : Option CommandState) : Moves accepted state accepted state
  | reserve : Moves accepted none accepted (some .ready)
  | send {state next : CommandState} (hlow : state.rank ≤ 1)
      (hsends : next ∈ [CommandState.ready, .sent, .sendFailed]) :
      Moves accepted (some state) accepted (some next)
  | acknowledge {state status : CommandState} (hstatus : 2 ≤ status.rank)
      (hagree : state.isFinal = true → status.isFinal = true → state = status) :
      Moves accepted (some state) (accepted ++ [status]) (some (ackState state status))

theorem Moves.of_mark {accepted : List CommandState} {before after : Option CommandState}
    (hmark : after = before ∨ ∃ state later, before = some state ∧ state.rank ≤ 1 ∧
      later ∈ [CommandState.ready, .sent, .sendFailed] ∧ after = some later) :
    Moves accepted before accepted after := by
  rcases hmark with rfl | ⟨state, later, rfl, hlow, hsends, rfl⟩
  · exact .stay after
  · exact .send hlow hsends

namespace OutboxHistory

variable {python : Python} {history : OutboxHistory}

theorem acceptedFor_concat {outbox : CommandOutbox} {ack : String × CommandState}
    (intentId : String) :
    acceptedFor { history with outbox := outbox, accepted := history.accepted ++ [ack] } intentId =
      if intentId = ack.1 then history.acceptedFor intentId ++ [ack.2]
      else history.acceptedFor intentId := by
  simp only [acceptedFor, List.filter_append, List.map_append]
  split_ifs with hid
  · simp [hid]
  · have hne : ack.1 ≠ intentId := fun hsame ↦ hid hsame.symm
    simp [hne]

variable (python) in
theorem moves_step (event : OutboxEvent) (intentId : String) :
    Moves (history.acceptedFor intentId) (history.outbox.stateOf intentId)
      ((history.step python event).acceptedFor intentId)
      ((history.step python event).outbox.stateOf intentId) := by
  cases event with
  | reserve payload producerId ttlMs createdAtMs =>
    simp only [step]
    split
    · rename_i next envelope hreserve
      rcases CommandOutbox.reserve_spec hreserve with
        ⟨rfl, -⟩ | ⟨row, rfl, -, -, -, -, hready, -, hfresh⟩
      · exact .stay _
      · dsimp only
        rw [CommandOutbox.stateOf_concat hfresh]
        split_ifs with hid
        · have hnone : history.outbox.stateOf intentId = none := by
            rw [hid, CommandOutbox.stateOf, CommandOutbox.row?, Option.map_eq_none_iff,
              List.find?_eq_none]
            exact fun other hother ↦ by simpa using hfresh other hother
          rw [hnone, hready]
          exact .reserve
        · exact .stay _
    · exact .stay _
  | markSent target =>
    apply Moves.of_mark
    apply CommandOutbox.stateOf_mark fun state ↦
      if state ∈ [CommandState.ready, .sendFailed] then .sent else state
    · exact fun row ↦ rfl
    · exact fun row ↦ rfl
    · intro state
      cases state <;> decide
  | markSendFailed target reason =>
    apply Moves.of_mark
    apply CommandOutbox.stateOf_mark fun state ↦
      if state ∈ [CommandState.ready, .sent, .sendFailed] then .sendFailed else state
    · exact fun row ↦ rfl
    · exact fun row ↦ rfl
    · intro state
      cases state <;> decide
  | acknowledge event =>
    simp only [step]
    split
    · rename_i ack next hvalid happly
      obtain ⟨current, hcurrent, hagree, -, -, hstates⟩ :=
        CommandOutbox.applyAck_spec hvalid happly
      dsimp only
      rw [hstates, acceptedFor_concat]
      split_ifs with hid
      · rw [hid, hcurrent]
        exact .acknowledge (CommandOutbox.validateAck_rank hvalid) hagree
      · exact .stay _
    · exact .stay _
  | reserveRolledBack => exact .stay _

/-- What was accepted for an intent decides its state. -/
def Follows (history : OutboxHistory) (intentId : String) : Prop :=
  (history.outbox.stateOf intentId).elim (history.acceptedFor intentId = [])
    (FollowsAcks (history.acceptedFor intentId))

theorem follows_step {intentId : String} (event : OutboxEvent)
    (hfollows : history.Follows intentId) : (history.step python event).Follows intentId := by
  have hmoves := history.moves_step python event intentId
  unfold Follows at hfollows ⊢
  generalize history.outbox.stateOf intentId = before at hfollows hmoves
  generalize (history.step python event).outbox.stateOf intentId = after at hmoves ⊢
  generalize (history.step python event).acceptedFor intentId = accepted at hmoves ⊢
  cases hmoves with
  | stay state => exact hfollows
  | reserve => exact Or.inl ⟨hfollows, by decide⟩
  | send hlow hsends => exact FollowsAcks.send hfollows (Or.inr ⟨hlow, hsends⟩)
  | acknowledge hstatus hagree => exact FollowsAcks.acknowledge hfollows hstatus hagree

theorem Follows.stateOf_eq {other : OutboxHistory} {intentId : String}
    (hfollows : history.Follows intentId) (hother : other.Follows intentId)
    (hsome : history.acceptedFor intentId ≠ [])
    (hsame : ∀ status, status ∈ history.acceptedFor intentId ↔
      status ∈ other.acceptedFor intentId) :
    history.outbox.stateOf intentId = other.outbox.stateOf intentId := by
  unfold Follows at hfollows hother
  cases hstate : history.outbox.stateOf intentId with
  | none =>
    rw [hstate] at hfollows
    exact absurd hfollows hsome
  | some state =>
    rw [hstate] at hfollows
    cases hlater : other.outbox.stateOf intentId with
    | none =>
      rw [hlater] at hother
      obtain ⟨status, hstatus⟩ := List.exists_mem_of_ne_nil _ hsome
      have hnone : other.acceptedFor intentId = [] := hother
      rw [hsame, hnone] at hstatus
      exact absurd hstatus List.not_mem_nil
    | some later =>
      rw [hlater] at hother
      exact congrArg some (hfollows.state_eq hother hsome hsame)

/-- A final state stays. -/
theorem final_step {intentId : String} {state : CommandState} (hfinal : state.isFinal = true)
    (event : OutboxEvent) (hstate : history.outbox.stateOf intentId = some state) :
    (history.step python event).outbox.stateOf intentId = some state := by
  have hmoves := history.moves_step python event intentId
  rw [hstate] at hmoves
  generalize (history.step python event).outbox.stateOf intentId = after at hmoves ⊢
  generalize (history.step python event).acceptedFor intentId = accepted at hmoves
  cases hmoves with
  | stay => rfl
  | send hlow hsends =>
    rw [rank_of_final hfinal] at hlow
    exact absurd hlow (by decide)
  | acknowledge => rw [ackState, if_pos hfinal]

/-! ### Envelopes and sequences -/

/-- The rows hold the envelope that was first returned for each intent, in that order, and number
them for each producer. -/
structure Recorded (history : OutboxHistory) : Prop where
  distinct : (history.outbox.commands.map OutboxRow.intentId).Nodup
  first : history.outbox.commands.map (fun row ↦ (row.intentId, row.envelope)) =
    firsts history.returned
  numbered : ∀ producerId,
    ((history.outbox.commands.filter fun row ↦ row.producerId = producerId).map fun row ↦
        (instruction row.envelope).sequence) =
      (List.range' 1 (history.outbox.lastSequence producerId)).map some

theorem Recorded.of_commands (hrecorded : history.Recorded) {later : OutboxHistory}
    (hcommands : later.outbox.commands = history.outbox.commands)
    (hsequence : later.outbox.lastSequence = history.outbox.lastSequence)
    (hreturned : firsts later.returned = firsts history.returned) : later.Recorded := by
  refine ⟨?_, ?_, ?_⟩
  · rw [hcommands]
    exact hrecorded.distinct
  · rw [hcommands, hreturned]
    exact hrecorded.first
  · rw [hcommands, hsequence]
    exact hrecorded.numbered

/-- A new row at the end holds what is returned for the first time, under the next sequence. -/
theorem Recorded.reserve (hrecorded : history.Recorded) {row : OutboxRow}
    (hfresh : ∀ other ∈ history.outbox.rows, other.intentId ≠ row.intentId)
    (hsequence : row.sequence = history.outbox.lastSequence row.producerId + 1)
    (hcarries : (instruction row.envelope).sequence = some row.sequence) :
    Recorded { history with
      outbox := ⟨history.outbox.rows ++ [row], Function.update history.outbox.lastSequence
        row.producerId (history.outbox.lastSequence row.producerId + 1)⟩
      returned := history.returned ++ [(row.intentId, row.envelope)] } := by
  have hnew : ∀ entry ∈ history.outbox.commands.map OutboxRow.intentId, entry ≠ row.intentId := by
    intro entry hentry
    obtain ⟨other, hother, rfl⟩ := List.mem_map.mp hentry
    obtain ⟨old, hold, rfl⟩ := List.mem_map.mp hother
    exact hfresh old hold
  refine ⟨?_, ?_, fun producerId ↦ ?_⟩
  · simp only [CommandOutbox.commands, List.map_append, List.map_singleton]
    refine List.nodup_append.mpr ⟨hrecorded.distinct, List.nodup_singleton _, ?_⟩
    intro entry hentry last hlast
    rw [List.mem_singleton.mp hlast]
    exact hnew entry hentry
  · have hunknown : (row.intentId, row.envelope) ∉ firsts history.returned := by
      rw [← hrecorded.first]
      intro hknown
      obtain ⟨other, hother, hsame⟩ := List.mem_map.mp hknown
      exact hnew _ (List.mem_map_of_mem hother) (Prod.mk.inj hsame).1
    rw [firsts_concat, if_neg hunknown, ← hrecorded.first]
    simp [CommandOutbox.commands, OutboxRow.command]
  · have hbefore := hrecorded.numbered producerId
    simp only [CommandOutbox.commands, List.map_append, List.map_singleton, List.filter_append,
      List.filter_singleton, Function.update_apply] at hbefore ⊢
    rw [hbefore]
    by_cases hproducer : producerId = row.producerId
    · subst hproducer
      rw [if_pos rfl, List.range'_concat]
      simp [OutboxRow.command, hcarries, hsequence, Nat.add_comm]
    · have hother : row.producerId ≠ producerId := fun hsame ↦ hproducer hsame.symm
      simp [OutboxRow.command, hproducer, hother]

theorem recorded_step (event : OutboxEvent) (hrecorded : history.Recorded) :
    (history.step python event).Recorded := by
  cases event with
  | reserve payload producerId ttlMs createdAtMs =>
    simp only [step]
    split
    · rename_i next envelope hreserve
      rcases CommandOutbox.reserve_spec hreserve with ⟨rfl, row, hrow, hid, rfl⟩ |
        ⟨row, rfl, hid, rfl, rfl, hsequence, -, hcarries, hfresh⟩
      · refine hrecorded.of_commands rfl rfl ?_
        have hknown : (payloadIntentId payload, row.envelope) ∈ firsts history.returned := by
          rw [← hrecorded.first, ← hid]
          exact List.mem_map.mpr ⟨row.command, List.mem_map_of_mem hrow, rfl⟩
        rw [firsts_concat, if_pos hknown]
      · rw [← hid]
        exact hrecorded.reserve hfresh hsequence hcarries
    · exact hrecorded
  | markSent target =>
    exact hrecorded.of_commands (CommandOutbox.commands_update _ fun _ ↦ rfl) rfl rfl
  | markSendFailed target reason =>
    exact hrecorded.of_commands (CommandOutbox.commands_update _ fun _ ↦ rfl) rfl rfl
  | acknowledge event =>
    simp only [step]
    split
    · rename_i ack next hvalid happly
      obtain ⟨current, -, -, hcommands, hsequence, -⟩ := CommandOutbox.applyAck_spec hvalid happly
      exact hrecorded.of_commands hcommands hsequence rfl
    · exact hrecorded
  | reserveRolledBack => exact hrecorded

/-- One envelope is returned for an intent. -/
theorem Recorded.returned_eq (hrecorded : history.Recorded) {first second : String × Record}
    (hfirst : first ∈ history.returned) (hsecond : second ∈ history.returned)
    (hid : first.1 = second.1) : first = second := by
  have hdistinct : ((firsts history.returned).map Prod.fst).Nodup := by
    rw [← hrecorded.first, List.map_map]
    exact hrecorded.distinct
  exact List.inj_on_of_nodup_map hdistinct (mem_firsts.mpr hfirst) (mem_firsts.mpr hsecond) hid

/-! ### Every history -/

variable (python)

/-- After every history the rows hold the envelope that was returned for each intent, always the
same one, in the order of their first reservation, and the envelopes of a producer carry the
sequences from one on. A final state stays whatever comes later. The state of a row is the one that
the accepted acknowledgements decide, so that it is the same after every history that accepted the
same ones. -/
theorem outbox_lawful (events more other : List OutboxEvent) :
    let history := run (step python) {} events
    let later := run (step python) {} (events ++ more)
    let elsewhere := run (step python) {} other
    (history.outbox.commands.map (fun row ↦ (row.intentId, row.envelope)) =
        firsts history.returned ∧
      ∀ first ∈ history.returned, ∀ second ∈ history.returned, first.1 = second.1 →
        first.2 = second.2) ∧
    (∀ producerId,
      ((history.outbox.commands.filter fun row ↦ row.producerId = producerId).map fun row ↦
          (instruction row.envelope).sequence) =
        (List.range' 1 (history.outbox.lastSequence producerId)).map some) ∧
    (∀ intentId state, history.outbox.stateOf intentId = some state → state.isFinal = true →
      later.outbox.stateOf intentId = some state) ∧
    ∀ intentId, history.Follows intentId ∧ (history.acceptedFor intentId ≠ [] →
      (∀ status, status ∈ history.acceptedFor intentId ↔ status ∈ elsewhere.acceptedFor intentId) →
        history.outbox.stateOf intentId = elsewhere.outbox.stateOf intentId) := by
  intro history later elsewhere
  have hrecorded : ∀ calls, Recorded (run (step python) {} calls) :=
    invariant_run Recorded ⟨List.nodup_nil, rfl, fun _ ↦ rfl⟩ fun _ ↦ recorded_step
  have hfollows : ∀ calls intentId, (run (step python) {} calls).Follows intentId := by
    intro calls intentId
    have hempty : Follows {} intentId := rfl
    exact invariant_run (Follows · intentId) hempty (fun _ ↦ follows_step) calls
  refine ⟨⟨(hrecorded events).first, ?_⟩, (hrecorded events).numbered, ?_, fun intentId ↦ ?_⟩
  · intro first hfirst second hsecond hid
    exact congrArg Prod.snd ((hrecorded events).returned_eq hfirst hsecond hid)
  · intro intentId state hstate hfinal
    have hlater : later = run (step python) history more := run_append _ events more
    rw [hlater]
    exact invariant_run (fun reached : OutboxHistory ↦ reached.outbox.stateOf intentId = some state)
      hstate (fun _ ↦ final_step hfinal) more
  · exact ⟨hfollows events intentId,
      (hfollows events intentId).stateOf_eq (hfollows other intentId)⟩

end OutboxHistory

end Bongus.Outbox
