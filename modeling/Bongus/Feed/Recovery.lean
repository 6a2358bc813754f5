import Bongus.Lib.Fallible
import Bongus.Lib.Runs
import Mathlib.Data.Int.Interval
import Mathlib.Data.List.Range

/-!
# Recovery of a feed

The row that `bongus/market_data/feed_recovery.py` keeps for one source: the last sequence, the
state of the feed and the range that is missing. A sequence that does not follow the last one opens
a gap (`ingest`), and the gap is closed by a backfill that is complete (`applyBackfill`), by a proof
of readiness (`recordReadinessProof`) or by retiring the source.

The row remembers one gap. A later gap replaces it, a ranged gap erases it, and a change of the
metadata replaces the state that announces it, so a feed can become ready before its cursor has
reached the end of a gap that was reported (`smaller_gap_forgets`). `gap_closed_before_ready` shows
that this does not happen along a run that does none of these while a gap is open (`KeepsGap`).
-/

set_option autoImplicit false
set_option relaxedAutoImplicit false

namespace Bongus.Feed

open Lib.Fallible Lib.Runs

inductive FeedState where
  | cold
  | ready
  | gapped
  | backfilling
  | throttled
  | maintenance
  | clockSkew
  | filterChanged
deriving DecidableEq, Repr

/-- The row of a source. -/
structure FeedCursor where
  lastSequence : Option ℤ := none
  state : FeedState
  gapFrom : Option ℤ := none
  gapTo : Option ℤ := none
  metadataHash : String := ""
deriving DecidableEq, Repr

structure SequenceResult where
  accepted : Bool
  duplicate : Bool
  state : FeedState
  priorSequence : Option ℤ
  sequence : ℤ
  missingFrom : Option ℤ := none
  missingTo : Option ℤ := none
  reason : String := ""
deriving DecidableEq, Repr

/-- A number that a column of the database can hold. -/
def columnInteger (value : ℤ) : Except String Unit :=
  if value < -2 ^ 63 ∨ 2 ^ 63 ≤ value then
    throw "Python int too large to convert to SQLite INTEGER"
  else pure ()

def checkSequence (field : String) (value : ℤ) : Except String Unit := do
  if value < 0 then throw (field ++ " must be a non-negative integer")
  columnInteger value

def optionalSequence (value : Option ℤ) (field : String) : Except String Unit :=
  match value with
  | none => pure ()
  | some value => checkSequence field value

def priorSequence (row : Option FeedCursor) : Option ℤ := row.bind FeedCursor.lastSequence

/-! ### The operations

A call returns its result with the row it leaves, or raises and leaves the row as it was.
-/

/-- The gap that a sequence opens behind the last one. -/
def openGap (cursor : FeedCursor) (sequence : ℤ) : SequenceResult × FeedCursor :=
  let gapFrom := match cursor.lastSequence with
    | some prior => prior + 1
    | none => sequence
  let gapTo := sequence - 1
  (⟨false, false, .gapped, cursor.lastSequence, sequence, some gapFrom, some gapTo,
    "contiguous_backfill_required"⟩,
    { cursor with state := .gapped, gapFrom := some gapFrom, gapTo := some gapTo })

/-- A sequence that arrives for a source with a row. -/
def ingestNext (cursor : FeedCursor) (sequence : ℤ) : SequenceResult × FeedCursor :=
  match cursor.lastSequence with
  | some prior =>
    if sequence ≤ prior then
      (⟨false, true, cursor.state, some prior, sequence, none, none,
        "duplicate_or_stale_sequence"⟩, cursor)
    else if sequence = prior + 1 ∧ cursor.state ≠ .gapped then
      (⟨true, false, .ready, some prior, sequence, none, none, ""⟩,
        { cursor with lastSequence := some sequence, state := .ready })
    else openGap cursor sequence
  | none => openGap cursor sequence

def ingest (row : Option FeedCursor) (sequence : ℤ) :
    Except String (SequenceResult × Option FeedCursor) := do
  checkSequence "sequence" sequence
  match row with
  | none =>
    return (⟨true, false, .ready, none, sequence, none, none, ""⟩,
      some { lastSequence := some sequence, state := .ready })
  | some cursor =>
    let (result, next) := ingestNext cursor sequence
    return (result, some next)

def recordGap (row : Option FeedCursor) (prior first final previousFinal : Option ℤ) :
    Except String (SequenceResult × Option FeedCursor) := do
  optionalSequence prior "prior_sequence"
  optionalSequence first "first_sequence"
  optionalSequence final "final_sequence"
  optionalSequence previousFinal "previous_final_sequence"
  let effectivePrior := prior.or (priorSequence row)
  let cursor := row.getD { state := .gapped }
  return (⟨false, false, .gapped, effectivePrior, final.getD (effectivePrior.getD 0), none, none,
      "fresh_snapshot_or_contiguous_range_proof_required"⟩,
    some { cursor with
      lastSequence := effectivePrior
      state := .gapped
      gapFrom := none
      gapTo := none })

/-- Whether the source was retired only now. -/
def retireSource (row : Option FeedCursor) : Except String (Bool × Option FeedCursor) :=
  match row with
  | none => .ok (false, none)
  | some cursor =>
    .ok (!(cursor.state = .cold && cursor.lastSequence.isNone), some { cursor with
      lastSequence := none
      state := .cold
      gapFrom := none
      gapTo := none })

def recordReadinessProof (row : Option FeedCursor) (final : ℤ) (first previousFinal : Option ℤ)
    (isSnapshot contiguous : Bool) : Except String (SequenceResult × Option FeedCursor) := do
  checkSequence "final_sequence" final
  optionalSequence first "first_sequence"
  optionalSequence previousFinal "previous_final_sequence"
  let prior := priorSequence row
  let stale := prior.any (fun prior ↦ final ≤ prior) && !isSnapshot
  if ¬ (isSnapshot ∨ contiguous) ∨ stale then
    return (⟨false, stale, (row.map FeedCursor.state).getD .cold, prior, final, none, none,
        if stale then "stale_readiness_proof" else "snapshot_or_contiguous_range_proof_required"⟩,
      some (row.getD { state := .cold }))
  else
    let cursor := row.getD { state := .ready }
    return (⟨true, false, .ready, prior, final, none, none,
        if isSnapshot then "fresh_snapshot_proven" else "fresh_contiguous_range_proven"⟩,
      some { cursor with
        lastSequence := some final
        state := .ready
        gapFrom := none
        gapTo := none })

/-- The sequences of a range, its ends included. -/
def sequenceRange (first last : ℤ) : List ℤ :=
  (List.range (last + 1 - first).toNat).map fun offset ↦ first + offset

/-- A backfill of a gap that is open. -/
def fillGap (cursor : FeedCursor) (prior gapFrom gapTo : ℤ) (values : List ℤ) :
    Except String (SequenceResult × Option FeedCursor) := do
  if values ≠ sequenceRange gapFrom gapTo then
    values.getLast?.forM columnInteger
    return (⟨false, false, .gapped, some prior, values.getLast?.getD prior, some gapFrom,
      some gapTo, "backfill_not_contiguous_or_complete"⟩, some cursor)
  else
    return (⟨true, false, .ready, some prior, gapTo, none, none,
        "gap_replayed_and_cursor_proven"⟩,
      some { cursor with
        lastSequence := some gapTo
        state := .ready
        gapFrom := none
        gapTo := none })

def applyBackfill (maxBackfillEvents : ℕ) (row : Option FeedCursor) (values : List ℤ) :
    Except String (SequenceResult × Option FeedCursor) := do
  if maxBackfillEvents < values.length then throw "backfill exceeds configured safety bound"
  match row with
  | none => throw "cannot backfill an uninitialized source"
  | some cursor =>
    match cursor.lastSequence with
    | none => throw "cannot backfill an uninitialized source"
    | some prior =>
      match cursor.state, cursor.gapFrom, cursor.gapTo with
      | .gapped, some gapFrom, some gapTo => fillGap cursor prior gapFrom gapTo values
      | _, _, _ => throw "source does not have a pending gap"

/-- The condition that a change of the metadata gives: its hashes before and after. -/
def classifyMetadata (row : Option FeedCursor) (digest : String) :
    Except String (Option (String × String) × Option FeedCursor) :=
  match row with
  | none => .ok (none, some { state := .cold, metadataHash := digest })
  | some cursor =>
    if digest = cursor.metadataHash then .ok (none, some cursor)
    else
      .ok (some (cursor.metadataHash, digest),
        some { cursor with metadataHash := digest, state := .filterChanged })

/-! ### Runs -/

inductive FeedEvent where
  | ingest (sequence : ℤ)
  | recordGap (prior first final previousFinal : Option ℤ)
  | retireSource
  | recordReadinessProof (final : ℤ) (first previousFinal : Option ℤ)
      (isSnapshot contiguous : Bool)
  | applyBackfill (values : List ℤ)
  | classifyMetadata (digest : String)
  /-- A call in which the database raises. -/
  | databaseFailed

/-- The row that a call leaves. -/
def rowAfter {α : Type} (row : Option FeedCursor) :
    Except String (α × Option FeedCursor) → Option FeedCursor
  | .ok (_, next) => next
  | .error _ => row

def applyEvent (maxBackfillEvents : ℕ) (row : Option FeedCursor) : FeedEvent → Option FeedCursor
  | .ingest sequence => rowAfter row (ingest row sequence)
  | .recordGap prior first final previousFinal =>
    rowAfter row (recordGap row prior first final previousFinal)
  | .retireSource => rowAfter row (retireSource row)
  | .recordReadinessProof final first previousFinal isSnapshot contiguous =>
    rowAfter row (recordReadinessProof row final first previousFinal isSnapshot contiguous)
  | .applyBackfill values => rowAfter row (applyBackfill maxBackfillEvents row values)
  | .classifyMetadata digest => rowAfter row (classifyMetadata row digest)
  | .databaseFailed => row

variable (maxBackfillEvents : ℕ)

/-- The sequence is answered with a gap whose missing range ends at `gapTo`. -/
def ReportsGap (row : Option FeedCursor) (sequence gapTo : ℤ) : Prop :=
  ∃ result next, ingest row sequence = .ok (result, next) ∧ result.accepted = false ∧
    result.missingTo = some gapTo

/-- A call was accepted and left the cursor at a sequence or behind it. -/
def Reaches (outcome : Except String (SequenceResult × Option FeedCursor)) (gapTo : ℤ) : Prop :=
  ∃ result next cursor, outcome = .ok (result, next) ∧ result.accepted = true ∧
    priorSequence next = some cursor ∧ gapTo ≤ cursor

/-- What allows a feed to be ready again after a gap: its cursor has reached the end of the gap
through an accepted sequence or a backfill, its readiness was proved, or it was retired. -/
def Settles (gapTo : ℤ) (row : Option FeedCursor) : FeedEvent → Prop
  | .ingest sequence => Reaches (ingest row sequence) gapTo
  | .applyBackfill values => Reaches (applyBackfill maxBackfillEvents row values) gapTo
  | .recordReadinessProof final first previousFinal isSnapshot contiguous =>
    ∃ result next, recordReadinessProof row final first previousFinal isSnapshot contiguous =
      .ok (result, next) ∧ result.accepted = true
  | .retireSource => True
  | _ => False

def IsReady (row : Option FeedCursor) : Prop := row.map FeedCursor.state = some .ready

instance (row : Option FeedCursor) : Decidable (IsReady row) :=
  inferInstanceAs (Decidable (row.map FeedCursor.state = some .ready))

/-- A call leaves the gap that is open as it is, or makes it larger. -/
def KeepsGap (row : Option FeedCursor) (event : FeedEvent) : Prop :=
  ∀ cursor gapTo, row = some cursor → cursor.state = .gapped → cursor.gapTo = some gapTo →
    match event with
    | .ingest sequence =>
      gapTo < sequence ∨ cursor.lastSequence.any (fun prior ↦ sequence ≤ prior) = true
    | .recordGap _ _ _ _ => False
    | .classifyMetadata digest => digest = cursor.metadataHash
    | _ => True

/-- The row still announces a gap that ends at `gapTo` or later. -/
def Owes (gapTo : ℤ) (row : Option FeedCursor) : Prop :=
  ∃ cursor found, row = some cursor ∧ cursor.state = .gapped ∧ cursor.gapTo = some found ∧
    gapTo ≤ found

theorem Owes.not_isReady {gapTo : ℤ} {row : Option FeedCursor} (howes : Owes gapTo row) :
    ¬ IsReady row := by
  obtain ⟨cursor, found, rfl, hstate, -, -⟩ := howes
  intro hready
  have hboth : some cursor.state = some FeedState.ready := hready
  rw [hstate] at hboth
  cases hboth

theorem openGap_gapTo (cursor : FeedCursor) (sequence : ℤ) :
    (openGap cursor sequence).2.state = .gapped ∧
      (openGap cursor sequence).2.gapTo = some (sequence - 1) ∧
      (openGap cursor sequence).1.missingTo = some (sequence - 1) := ⟨rfl, rfl, rfl⟩

/-- A sequence is stale, follows the last one, or opens a gap. -/
theorem ingestNext_cases (cursor : FeedCursor) (sequence : ℤ) :
    ((ingestNext cursor sequence).2 = cursor ∧ (ingestNext cursor sequence).1.missingTo = none ∧
        cursor.lastSequence.any (fun prior ↦ sequence ≤ prior) = true) ∨
      ((ingestNext cursor sequence).1.missingTo = none ∧ cursor.state ≠ .gapped) ∨
      (ingestNext cursor sequence = openGap cursor sequence ∧
        cursor.lastSequence.any (fun prior ↦ sequence ≤ prior) = false) := by
  unfold ingestNext
  cases hlast : cursor.lastSequence with
  | none => exact Or.inr (Or.inr ⟨rfl, rfl⟩)
  | some prior =>
    dsimp only
    by_cases hstale : sequence ≤ prior
    · rw [if_pos hstale]
      exact Or.inl ⟨rfl, rfl, decide_eq_true hstale⟩
    rw [if_neg hstale]
    by_cases hfollows : sequence = prior + 1 ∧ cursor.state ≠ .gapped
    · rw [if_pos hfollows]
      exact Or.inr (Or.inl ⟨rfl, hfollows.2⟩)
    · rw [if_neg hfollows]
      exact Or.inr (Or.inr ⟨rfl, decide_eq_false hstale⟩)

theorem ingest_eq_ok {cursor : FeedCursor} {sequence : ℤ} {result : SequenceResult}
    {next : Option FeedCursor} (hingest : ingest (some cursor) sequence = .ok (result, next)) :
    result = (ingestNext cursor sequence).1 ∧ next = some (ingestNext cursor sequence).2 := by
  simp only [ingest, bind_eq_ok, pure_eq_ok, Prod.mk.injEq] at hingest
  obtain ⟨-, -, hresult, hnext⟩ := hingest
  exact ⟨hresult.symm, hnext.symm⟩

/-- A gap that is reported is the one that the row announces. -/
theorem owes_of_reportsGap {row : Option FeedCursor} {sequence gapTo : ℤ}
    (hreports : ReportsGap row sequence gapTo) :
    Owes gapTo (applyEvent maxBackfillEvents row (.ingest sequence)) := by
  obtain ⟨result, next, hingest, hrefused, hmissing⟩ := hreports
  have happly : applyEvent maxBackfillEvents row (.ingest sequence) = next := by
    rw [applyEvent, hingest]
    rfl
  cases row with
  | none =>
    simp only [ingest, bind_eq_ok, pure_eq_ok, Prod.mk.injEq] at hingest
    obtain ⟨-, -, rfl, -⟩ := hingest
    cases hrefused
  | some cursor =>
    obtain ⟨rfl, rfl⟩ := ingest_eq_ok hingest
    rw [happly]
    rcases ingestNext_cases cursor sequence with ⟨-, hnone, -⟩ | ⟨hnone, -⟩ | ⟨hopens, -⟩
    · rw [hnone] at hmissing
      cases hmissing
    · rw [hnone] at hmissing
      cases hmissing
    · obtain ⟨hstate, hgap, hends⟩ := openGap_gapTo cursor sequence
      rw [hopens] at hmissing ⊢
      exact ⟨_, gapTo, rfl, hstate, hgap.trans (hends.symm.trans hmissing), le_rfl⟩

/-- A gap stays announced until something settles it. -/
theorem Owes.step {gapTo : ℤ} {row : Option FeedCursor} (howes : Owes gapTo row)
    {event : FeedEvent} (hkeeps : KeepsGap row event) :
    Settles maxBackfillEvents gapTo row event ∨
      Owes gapTo (applyEvent maxBackfillEvents row event) := by
  have hstays := howes
  obtain ⟨cursor, found, rfl, hstate, hgap, hle⟩ := howes
  have hcondition := hkeeps cursor found rfl hstate hgap
  cases event with
  | ingest sequence =>
    right
    cases hingest : ingest (some cursor) sequence with
    | error error =>
      rw [applyEvent, hingest]
      exact hstays
    | ok outcome =>
      obtain ⟨result, next⟩ := outcome
      have hnext := (ingest_eq_ok hingest).2
      rw [applyEvent, hingest, hnext]
      rcases ingestNext_cases cursor sequence with ⟨hsame, -, -⟩ | ⟨-, hother⟩ | ⟨hopens, hnew⟩
      · rw [hsame]
        exact hstays
      · exact absurd hstate hother
      · obtain ⟨hgapped, hends, -⟩ := openGap_gapTo cursor sequence
        have hlarger : found < sequence := by
          rcases hcondition with hlarger | hstale
          · exact hlarger
          · rw [hnew] at hstale
            cases hstale
        rw [hopens]
        exact ⟨_, sequence - 1, rfl, hgapped, hends, by omega⟩
  | recordGap prior first final previousFinal => exact hcondition.elim
  | retireSource => exact Or.inl trivial
  | recordReadinessProof final first previousFinal isSnapshot contiguous =>
    cases hproof : recordReadinessProof (some cursor) final first previousFinal isSnapshot
        contiguous with
    | error error =>
      right
      rw [applyEvent, hproof]
      exact hstays
    | ok outcome =>
      obtain ⟨result, next⟩ := outcome
      cases haccepted : result.accepted with
      | true => exact Or.inl ⟨result, next, hproof, haccepted⟩
      | false =>
        right
        rw [applyEvent, hproof]
        simp only [recordReadinessProof, bind_eq_ok] at hproof
        obtain ⟨-, -, -, -, -, -, hproof⟩ := hproof
        split at hproof
        · cases hproof
          exact hstays
        · cases hproof
          cases haccepted
  | applyBackfill values =>
    cases hbackfill : applyBackfill maxBackfillEvents (some cursor) values with
    | error error =>
      right
      rw [applyEvent, hbackfill]
      exact hstays
    | ok outcome =>
      obtain ⟨result, next⟩ := outcome
      rw [applyEvent, hbackfill]
      have hfill := hbackfill
      simp only [applyBackfill, throw_bind, check_eq_ok] at hfill
      obtain ⟨-, hfill⟩ := hfill
      split at hfill
      · cases hfill
      rename_i prior hprior
      split at hfill
      · rename_i gapFrom gapEnd _ _ hend
        rw [hgap, Option.some.injEq] at hend
        subst hend
        simp only [fillGap] at hfill
        split at hfill
        · right
          simp only [bind_eq_ok, pure_eq_ok, Prod.mk.injEq] at hfill
          obtain ⟨-, -, -, rfl⟩ := hfill
          exact hstays
        · left
          simp only [pure_eq_ok, Prod.mk.injEq] at hfill
          obtain ⟨rfl, rfl⟩ := hfill
          exact ⟨_, _, found, hbackfill, rfl, rfl, hle⟩
      · cases hfill
  | classifyMetadata digest =>
    right
    rw [applyEvent, classifyMetadata, if_pos hcondition]
    exact hstays
  | databaseFailed => exact Or.inr hstays

/-- Something in a run settles a gap that is announced, or it is announced after the run. -/
theorem Owes.run {gapTo : ℤ} {row : Option FeedCursor} (howes : Owes gapTo row)
    {events : List FeedEvent}
    (hkeeps : Along (applyEvent maxBackfillEvents) KeepsGap row events) :
    (∃ before event after, events = before ++ event :: after ∧
        Settles maxBackfillEvents gapTo (run (applyEvent maxBackfillEvents) row before) event) ∨
      Owes gapTo (run (applyEvent maxBackfillEvents) row events) := by
  induction events generalizing row with
  | nil => exact Or.inr howes
  | cons event rest ih =>
    obtain ⟨hfirst, hrest⟩ := hkeeps
    rcases howes.step maxBackfillEvents hfirst with hsettles | hstays
    · exact Or.inl ⟨[], event, rest, rfl, hsettles⟩
    · rcases ih hstays hrest with ⟨before, later, after, rfl, hsettles⟩ | hends
      · exact Or.inl ⟨event :: before, later, after, rfl, hsettles⟩
      · exact Or.inr hends

/-- A gap that was reported is settled before the feed is ready again, if the calls since then keep
the gaps that are open. -/
theorem gap_closed_before_ready {start : Option FeedCursor} {before after : List FeedEvent}
    {sequence gapTo : ℤ}
    (hreports : ReportsGap (run (applyEvent maxBackfillEvents) start before) sequence gapTo)
    (hkeeps : Along (applyEvent maxBackfillEvents) KeepsGap
      (run (applyEvent maxBackfillEvents) start (before ++ [.ingest sequence])) after)
    (hready : IsReady (run (applyEvent maxBackfillEvents) start
      (before ++ .ingest sequence :: after))) :
    ∃ between event later, after = between ++ event :: later ∧
      Settles maxBackfillEvents gapTo (run (applyEvent maxBackfillEvents) start
        (before ++ .ingest sequence :: between)) event := by
  have howes := owes_of_reportsGap maxBackfillEvents hreports
  rw [run_concat] at hkeeps
  rw [run_append, run_cons] at hready
  rcases howes.run maxBackfillEvents hkeeps with ⟨between, event, later, rfl, hsettles⟩ | hends
  · refine ⟨between, event, later, rfl, ?_⟩
    rw [run_append, run_cons]
    exact hsettles
  · exact absurd hready hends.not_isReady

/-- A gap of three is closed by its backfill. -/
theorem gap_closed_before_ready_backfill :
    ∃ between event later, [FeedEvent.applyBackfill [2, 3, 4]] = between ++ event :: later ∧
      Settles 10 4 (run (applyEvent 10) none ([.ingest 1] ++ .ingest 5 :: between)) event := by
  refine gap_closed_before_ready 10 ⟨_, _, rfl, rfl, rfl⟩ ⟨?_, trivial⟩ ?_
  · exact fun _ _ _ _ _ ↦ trivial
  · decide +kernel

/-- The gap from 2 to 9 is forgotten when 2 arrives, and an empty backfill makes the feed ready at
1. -/
theorem smaller_gap_forgets :
    ReportsGap (run (applyEvent 10) none [.ingest 1]) 10 9 ∧
      IsReady (run (applyEvent 10) none
        ([.ingest 1] ++ .ingest 10 :: [.ingest 2, .applyBackfill []])) ∧
      ¬ ∃ between event later, [FeedEvent.ingest 2, .applyBackfill []] =
        between ++ event :: later ∧
          Settles 10 9 (run (applyEvent 10) none ([.ingest 1] ++ .ingest 10 :: between)) event := by
  refine ⟨⟨_, _, rfl, rfl, rfl⟩, by decide +kernel, ?_⟩
  rintro ⟨between, event, later, hsplit, hsettles⟩
  match between, hsplit with
  | [], hsplit =>
    cases hsplit
    obtain ⟨result, next, cursor, hingest, haccepted, -, -⟩ := hsettles
    cases hingest
    cases haccepted
  | [_], hsplit =>
    cases hsplit
    obtain ⟨result, next, cursor, hbackfill, -, hcursor, hreached⟩ := hsettles
    cases hbackfill
    cases hcursor
    exact absurd hreached (by decide)
  | _ :: _ :: rest, hsplit =>
    have hlength := congrArg List.length hsplit
    simp at hlength

end Bongus.Feed
