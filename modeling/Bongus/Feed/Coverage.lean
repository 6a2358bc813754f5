import Bongus.Feed.Recovery

/-!
# What a feed delivers

The sequences that the calls of a source accept, one after the other or as a backfill
(`delivery`). A gap that is open starts behind the last sequence (`Ordered`), so every accepted call
continues where the ones before it ended (`delivery_cases`), and along the calls of a source with
scalar sequences everything from the first sequence to the last is accepted once
(`delivered_exactly_once`).

A row without a last sequence is only ever answered with a gap that no backfill can close.
`recoverable_iff` shows that sequences and backfills make a source ready again just if it has no row
yet or a last sequence that can be followed (`CanAdvance`).
-/

set_option autoImplicit false
set_option relaxedAutoImplicit false

namespace Bongus.Feed

open Lib.Fallible Lib.Runs

def accepts : Except String (SequenceResult × Option FeedCursor) → Bool
  | .ok (result, _) => result.accepted
  | .error _ => false

/-- An accepted call. -/
inductive Delivery where
  | ingest (sequence : ℤ)
  | backfill (values : List ℤ)
deriving DecidableEq, Repr

def Delivery.values : Delivery → List ℤ
  | .ingest sequence => [sequence]
  | .backfill values => values

variable (maxBackfillEvents : ℕ)

def delivery (row : Option FeedCursor) : FeedEvent → Option Delivery
  | .ingest sequence => if accepts (ingest row sequence) then some (.ingest sequence) else none
  | .applyBackfill values =>
    if accepts (applyBackfill maxBackfillEvents row values) then some (.backfill values) else none
  | _ => none

def deliveries : Option FeedCursor → List FeedEvent → List Delivery :=
  logOf (applyEvent maxBackfillEvents) (delivery maxBackfillEvents)

/-- The sequences of the accepted calls, in their order. -/
def delivered (log : List Delivery) : List ℤ := log.flatMap Delivery.values

/-! ### Ranges -/

theorem sequenceRange_eq_map (first last : ℤ) :
    sequenceRange first last =
      (List.range (last + 1 - first).toNat).map fun offset : ℕ ↦ first + (offset : ℤ) := by
  simp only [sequenceRange, List.bind_eq_flatMap, List.pure_def, List.map_flatMap, List.map_cons,
    List.map_nil]
  exact (List.map_eq_flatMap).symm

theorem mem_sequenceRange {first last value : ℤ} :
    value ∈ sequenceRange first last ↔ first ≤ value ∧ value ≤ last := by
  simp only [sequenceRange_eq_map, List.mem_map, List.mem_range]
  constructor
  · rintro ⟨offset, hoffset, rfl⟩
    omega
  · rintro ⟨hfirst, hlast⟩
    exact ⟨(value - first).toNat, by omega, by omega⟩

theorem nodup_sequenceRange (first last : ℤ) : (sequenceRange first last).Nodup := by
  rw [sequenceRange_eq_map]
  refine List.Nodup.map (fun left right hsame ↦ ?_) List.nodup_range
  simpa using hsame

theorem sequenceRange_self (value : ℤ) : sequenceRange value value = [value] := by
  have hone : (value + 1 - value).toNat = 1 := by omega
  rw [sequenceRange_eq_map, hone]
  simp

theorem sequenceRange_append {first middle last : ℤ} (hfirst : first ≤ middle + 1)
    (hlast : middle ≤ last) :
    sequenceRange first middle ++ sequenceRange (middle + 1) last = sequenceRange first last := by
  have hlength : (last + 1 - first).toNat =
      (middle + 1 - first).toNat + (last + 1 - (middle + 1)).toNat := by omega
  simp only [sequenceRange_eq_map]
  rw [hlength, List.range_add, List.map_append, List.map_map]
  congr 1
  refine List.map_congr_left fun offset _ ↦ ?_
  simp only [Function.comp_apply]
  omega

/-- In a log without repetitions, one entry has each value that is in it. -/
theorem countP_values_eq_one {log : List Delivery} {value : ℤ}
    (honce : (delivered log).Nodup) (hmem : value ∈ delivered log) :
    log.countP (fun entry ↦ decide (value ∈ entry.values)) = 1 := by
  induction log with
  | nil => simp [delivered] at hmem
  | cons entry rest ih =>
    simp only [delivered, List.flatMap_cons] at honce hmem
    obtain ⟨-, hrest, hapart⟩ := List.nodup_append.mp honce
    rw [List.countP_cons]
    by_cases hhere : value ∈ entry.values
    · have hlater : rest.countP (fun entry ↦ decide (value ∈ entry.values)) = 0 := by
        rw [List.countP_eq_zero]
        intro other hother hvalue
        exact hapart value hhere value
          (List.mem_flatMap.mpr ⟨other, hother, of_decide_eq_true hvalue⟩) rfl
      rw [hlater, if_pos (decide_eq_true hhere)]
    · rw [ih hrest ((List.mem_append.mp hmem).resolve_left hhere),
        if_neg (by simpa using hhere)]

/-! ### One call -/

theorem checkSequence_eq_ok {field : String} {value : ℤ} :
    checkSequence field value = .ok () ↔ 0 ≤ value ∧ value < 2 ^ 63 := by
  simp only [checkSequence, columnInteger, throw_bind, check_eq_ok, pure_eq_ok,
    and_true]
  omega

/-- A sequence is refused, is the first one, follows the last one, or opens a gap. -/
theorem ingest_cases (row : Option FeedCursor) (sequence : ℤ) :
    (accepts (ingest row sequence) = false ∧ rowAfter row (ingest row sequence) = row) ∨
      (row = none ∧ 0 ≤ sequence ∧ sequence < 2 ^ 63 ∧ accepts (ingest row sequence) = true ∧
        rowAfter row (ingest row sequence) =
          some { lastSequence := some sequence, state := .ready }) ∨
      (∃ cursor prior, row = some cursor ∧ cursor.lastSequence = some prior ∧
        sequence = prior + 1 ∧ sequence < 2 ^ 63 ∧ accepts (ingest row sequence) = true ∧
        rowAfter row (ingest row sequence) =
          some { cursor with lastSequence := some sequence, state := .ready }) ∨
      (∃ cursor, row = some cursor ∧ sequence < 2 ^ 63 ∧
        (∀ prior, cursor.lastSequence = some prior → prior < sequence) ∧
        accepts (ingest row sequence) = false ∧
        rowAfter row (ingest row sequence) = some (openGap cursor sequence).2) := by
  by_cases hfits : 0 ≤ sequence ∧ sequence < 2 ^ 63
  swap
  · left
    have hraises : ∃ error, ingest row sequence = .error error := by
      unfold ingest
      cases hcheck : checkSequence "sequence" sequence with
      | error error => exact ⟨error, rfl⟩
      | ok => exact absurd (checkSequence_eq_ok.mp hcheck) hfits
    obtain ⟨error, herror⟩ := hraises
    rw [herror]
    exact ⟨rfl, rfl⟩
  have hcheck : checkSequence "sequence" sequence = .ok () := checkSequence_eq_ok.mpr hfits
  cases row with
  | none =>
    unfold ingest
    rw [hcheck]
    exact Or.inr (Or.inl ⟨rfl, hfits.1, hfits.2, rfl, rfl⟩)
  | some cursor =>
    have hok : ingest (some cursor) sequence =
        .ok ((ingestNext cursor sequence).1, some (ingestNext cursor sequence).2) := by
      unfold ingest
      rw [hcheck]
      rfl
    rw [hok]
    cases hlast : cursor.lastSequence with
    | none =>
      have hopens : ingestNext cursor sequence = openGap cursor sequence := by
        simp only [ingestNext, hlast]
      rw [hopens]
      exact Or.inr (Or.inr (Or.inr ⟨cursor, rfl, hfits.2, by simp [hlast], rfl, rfl⟩))
    | some prior =>
      by_cases hstale : sequence ≤ prior
      · left
        simp only [ingestNext, hlast, hstale, if_true]
        exact ⟨rfl, rfl⟩
      by_cases hfollows : sequence = prior + 1 ∧ cursor.state ≠ .gapped
      · refine Or.inr (Or.inr (Or.inl ⟨cursor, prior, rfl, hlast, hfollows.1, hfits.2, ?_⟩))
        simp only [ingestNext, hlast, hstale, if_false, if_pos hfollows]
        exact ⟨rfl, rfl⟩
      · refine Or.inr (Or.inr (Or.inr ⟨cursor, rfl, hfits.2, ?_, ?_⟩))
        · intro found hfound
          rw [hlast, Option.some.injEq] at hfound
          omega
        · have hopens : ingestNext cursor sequence = openGap cursor sequence := by
            simp only [ingestNext, hlast, hstale, if_false, if_neg hfollows]
          rw [hopens]
          exact ⟨rfl, rfl⟩

/-- A backfill is refused, or it is the range of the gap that is open. -/
theorem applyBackfill_cases (row : Option FeedCursor) (values : List ℤ) :
    (accepts (applyBackfill maxBackfillEvents row values) = false ∧
        rowAfter row (applyBackfill maxBackfillEvents row values) = row) ∨
      (∃ cursor prior gapFrom gapTo, row = some cursor ∧ cursor.lastSequence = some prior ∧
        cursor.state = .gapped ∧ cursor.gapFrom = some gapFrom ∧ cursor.gapTo = some gapTo ∧
        values = sequenceRange gapFrom gapTo ∧
        accepts (applyBackfill maxBackfillEvents row values) = true ∧
        rowAfter row (applyBackfill maxBackfillEvents row values) = some { cursor with
          lastSequence := some gapTo
          state := .ready
          gapFrom := none
          gapTo := none }) := by
  cases hbackfill : applyBackfill maxBackfillEvents row values with
  | error error => exact Or.inl ⟨rfl, rfl⟩
  | ok outcome =>
    obtain ⟨result, next⟩ := outcome
    simp only [applyBackfill, throw_bind, check_eq_ok] at hbackfill
    obtain ⟨-, hfill⟩ := hbackfill
    split at hfill
    · cases hfill
    rename_i cursor
    split at hfill
    · cases hfill
    rename_i prior hprior
    split at hfill
    · rename_i gapFrom gapTo hstate hfrom hto
      simp only [fillGap] at hfill
      split at hfill
      · left
        simp only [bind_eq_ok, pure_eq_ok, Prod.mk.injEq] at hfill
        obtain ⟨-, -, rfl, rfl⟩ := hfill
        exact ⟨rfl, rfl⟩
      · rename_i hcomplete
        simp only [pure_eq_ok, Prod.mk.injEq] at hfill
        obtain ⟨rfl, rfl⟩ := hfill
        exact Or.inr ⟨cursor, prior, gapFrom, gapTo, rfl, hprior, hstate, hfrom, hto,
          not_not.mp hcomplete, rfl, rfl⟩
    · cases hfill

/-- The cursor is a number that the column holds, and a gap that is open starts behind it. -/
def Ordered (row : Option FeedCursor) : Prop :=
  ∀ cursor prior, row = some cursor → cursor.lastSequence = some prior →
    0 ≤ prior ∧ prior < 2 ^ 63 ∧
      (cursor.state = .gapped → ∀ gapFrom gapTo, cursor.gapFrom = some gapFrom →
        cursor.gapTo = some gapTo → gapFrom = prior + 1 ∧ prior ≤ gapTo ∧ gapTo < 2 ^ 63)

/-- Whether a row is ordered only depends on its cursor, and on its gap while it is gapped. -/
theorem Ordered.of_settled {cursor : FeedCursor}
    (hlast : ∀ prior, cursor.lastSequence = some prior → 0 ≤ prior ∧ prior < 2 ^ 63)
    (hsettled : cursor.state ≠ .gapped ∨ cursor.gapFrom = none) : Ordered (some cursor) := by
  rintro found prior hfound hprior
  obtain rfl := Option.some.inj hfound
  refine ⟨(hlast prior hprior).1, (hlast prior hprior).2, fun hstate gapFrom gapTo hfrom _ ↦ ?_⟩
  rcases hsettled with hready | hnone
  · exact absurd hstate hready
  · rw [hnone] at hfrom
    cases hfrom

theorem Ordered.cursor {row : Option FeedCursor} (hordered : Ordered row) {prior : ℤ}
    (hprior : priorSequence row = some prior) : 0 ≤ prior ∧ prior < 2 ^ 63 := by
  obtain ⟨cursor, rfl, hlast⟩ := Option.bind_eq_some_iff.mp hprior
  obtain ⟨hleast, hmost, -⟩ := hordered cursor prior rfl hlast
  exact ⟨hleast, hmost⟩

theorem ordered_ingest {row : Option FeedCursor} (hordered : Ordered row) (sequence : ℤ) :
    Ordered (rowAfter row (ingest row sequence)) := by
  rcases ingest_cases row sequence with ⟨-, hsame⟩ | ⟨-, hleast, hmost, -, hfirst⟩ |
    ⟨cursor, prior, rfl, hlast, hfollows, hmost, -, hnext⟩ | ⟨cursor, rfl, hmost, hlater, -, hopens⟩
  · rw [hsame]
    exact hordered
  · rw [hfirst]
    refine Ordered.of_settled (fun found hfound ↦ ?_) (Or.inr rfl)
    obtain rfl := Option.some.inj hfound
    exact ⟨hleast, hmost⟩
  · rw [hnext]
    have hprior := (hordered cursor prior rfl hlast).1
    refine Ordered.of_settled (fun found hfound ↦ ?_) (Or.inl (by simp))
    obtain rfl := Option.some.inj hfound
    omega
  · rw [hopens]
    rintro found prior hfound hprior
    obtain rfl := Option.some.inj hfound
    have hlast : cursor.lastSequence = some prior := hprior
    obtain ⟨hleast, hprior, -⟩ := hordered cursor prior rfl hlast
    refine ⟨hleast, hprior, fun _ gapFrom gapTo hfrom hto ↦ ?_⟩
    simp only [openGap, hlast, Option.some.injEq] at hfrom hto
    have hbefore := hlater prior hlast
    omega

theorem ordered_applyBackfill {row : Option FeedCursor} (hordered : Ordered row)
    (values : List ℤ) :
    Ordered (rowAfter row (applyBackfill maxBackfillEvents row values)) := by
  rcases applyBackfill_cases maxBackfillEvents row values with ⟨-, hsame⟩ |
    ⟨cursor, prior, gapFrom, gapTo, rfl, hlast, hstate, hfrom, hto, -, -, hnext⟩
  · rw [hsame]
    exact hordered
  · rw [hnext]
    obtain ⟨hleast, -, hgap⟩ := hordered cursor prior rfl hlast
    obtain ⟨-, hreaches, hmost⟩ := hgap hstate gapFrom gapTo hfrom hto
    refine Ordered.of_settled (fun found hfound ↦ ?_) (Or.inr rfl)
    obtain rfl := Option.some.inj hfound
    exact ⟨hleast.trans hreaches, hmost⟩

theorem ordered_recordGap {row : Option FeedCursor} (hordered : Ordered row)
    (prior first final previousFinal : Option ℤ) :
    Ordered (rowAfter row (recordGap row prior first final previousFinal)) := by
  cases hrecord : recordGap row prior first final previousFinal with
  | error error => exact hordered
  | ok outcome =>
    simp only [recordGap, bind_eq_ok, pure_eq_ok] at hrecord
    obtain ⟨⟨⟩, hcheck, -, -, -, -, -, -, rfl⟩ := hrecord
    refine Ordered.of_settled (fun found hfound ↦ ?_) (Or.inr rfl)
    cases prior with
    | none => exact hordered.cursor hfound
    | some given =>
      obtain rfl := Option.some.inj hfound
      exact checkSequence_eq_ok.mp hcheck

theorem ordered_recordReadinessProof {row : Option FeedCursor} (hordered : Ordered row) (final : ℤ)
    (first previousFinal : Option ℤ) (isSnapshot contiguous : Bool) :
    Ordered (rowAfter row
      (recordReadinessProof row final first previousFinal isSnapshot contiguous)) := by
  cases hproof : recordReadinessProof row final first previousFinal isSnapshot contiguous with
  | error error => exact hordered
  | ok outcome =>
    simp only [recordReadinessProof, bind_eq_ok] at hproof
    obtain ⟨⟨⟩, hcheck, -, -, -, -, hproof⟩ := hproof
    split at hproof
    · simp only [pure_eq_ok] at hproof
      subst hproof
      cases row with
      | none => exact Ordered.of_settled (by simp) (Or.inr rfl)
      | some cursor => exact hordered
    · simp only [pure_eq_ok] at hproof
      subst hproof
      refine Ordered.of_settled (fun found hfound ↦ ?_) (Or.inr rfl)
      obtain rfl := Option.some.inj hfound
      exact checkSequence_eq_ok.mp hcheck

theorem ordered_step (row : Option FeedCursor) (event : FeedEvent) (hordered : Ordered row) :
    Ordered (applyEvent maxBackfillEvents row event) := by
  cases event with
  | ingest sequence => exact ordered_ingest hordered sequence
  | recordGap prior first final previousFinal =>
    exact ordered_recordGap hordered prior first final previousFinal
  | retireSource =>
    cases row with
    | none => exact hordered
    | some cursor => exact Ordered.of_settled (by simp) (Or.inr rfl)
  | recordReadinessProof final first previousFinal isSnapshot contiguous =>
    exact ordered_recordReadinessProof hordered final first previousFinal isSnapshot contiguous
  | applyBackfill values => exact ordered_applyBackfill maxBackfillEvents hordered values
  | classifyMetadata digest =>
    cases row with
    | none => exact Ordered.of_settled (by simp) (Or.inr rfl)
    | some cursor =>
      rw [applyEvent, classifyMetadata]
      split
      · exact hordered
      · exact Ordered.of_settled (fun prior hprior ↦ hordered.cursor hprior) (Or.inl (by simp))
  | databaseFailed => exact hordered

theorem ordered_run (events : List FeedEvent) :
    Ordered (run (applyEvent maxBackfillEvents) none events) :=
  invariant_run Ordered (by simp [Ordered]) (ordered_step maxBackfillEvents) events

/-! ### Every sequence once -/

/-- The calls of a source with scalar sequences. -/
def Scalar : FeedEvent → Prop
  | .ingest _ | .applyBackfill _ | .classifyMetadata _ | .databaseFailed => True
  | _ => False

/-- A call that is accepted is the first sequence of the source or continues behind the cursor; any
other call leaves the cursor where it is. -/
theorem delivery_cases {row : Option FeedCursor} (hordered : Ordered row) {event : FeedEvent}
    (hscalar : Scalar event) :
    (delivery maxBackfillEvents row event = none ∧
        priorSequence (applyEvent maxBackfillEvents row event) = priorSequence row) ∨
      (∃ sequence, row = none ∧
        delivery maxBackfillEvents row event = some (.ingest sequence) ∧
        priorSequence (applyEvent maxBackfillEvents row event) = some sequence) ∨
      (∃ entry prior last, priorSequence row = some prior ∧ prior ≤ last ∧
        delivery maxBackfillEvents row event = some entry ∧
        entry.values = sequenceRange (prior + 1) last ∧
        priorSequence (applyEvent maxBackfillEvents row event) = some last) := by
  cases event with
  | ingest sequence =>
    rw [delivery, applyEvent]
    rcases ingest_cases row sequence with ⟨hrefused, hsame⟩ | ⟨hnone, -, -, haccepts, hfirst⟩ |
      ⟨cursor, prior, rfl, hlast, hfollows, -, haccepts, hnext⟩ |
      ⟨cursor, rfl, -, -, hrefused, hopens⟩
    · rw [hrefused, hsame]
      exact Or.inl ⟨rfl, rfl⟩
    · rw [haccepts, hfirst]
      exact Or.inr (Or.inl ⟨sequence, hnone, rfl, rfl⟩)
    · rw [haccepts, hnext]
      refine Or.inr (Or.inr ⟨.ingest sequence, prior, sequence, hlast, by omega, rfl, ?_, rfl⟩)
      rw [hfollows, sequenceRange_self]
      rfl
    · rw [hrefused, hopens]
      exact Or.inl ⟨rfl, rfl⟩
  | applyBackfill values =>
    rw [delivery, applyEvent]
    rcases applyBackfill_cases maxBackfillEvents row values with ⟨hrefused, hsame⟩ |
      ⟨cursor, prior, gapFrom, gapTo, rfl, hlast, hstate, hfrom, hto, hvalues, haccepts, hnext⟩
    · rw [hrefused, hsame]
      exact Or.inl ⟨rfl, rfl⟩
    · rw [haccepts, hnext]
      obtain ⟨-, -, hgap⟩ := hordered cursor prior rfl hlast
      obtain ⟨hbehind, hreaches, -⟩ := hgap hstate gapFrom gapTo hfrom hto
      refine Or.inr (Or.inr ⟨.backfill values, prior, gapTo, hlast, hreaches, rfl, ?_, rfl⟩)
      rw [← hbehind]
      exact hvalues
  | classifyMetadata digest =>
    refine Or.inl ⟨rfl, ?_⟩
    cases row with
    | none => rfl
    | some cursor =>
      rw [applyEvent, classifyMetadata]
      split <;> rfl
  | databaseFailed => exact Or.inl ⟨rfl, rfl⟩
  | recordGap prior first final previousFinal => exact hscalar.elim
  | retireSource => exact hscalar.elim
  | recordReadinessProof final first previousFinal isSnapshot contiguous => exact hscalar.elim

/-- The log starts with a sequence and holds everything from it to the cursor, in order. -/
def Covers (row : Option FeedCursor) (log : List Delivery) : Prop :=
  match priorSequence row with
  | none => log = []
  | some last => ∃ first, log.head? = some (.ingest first) ∧ first ≤ last ∧
      delivered log = sequenceRange first last

theorem covers_step (row : Option FeedCursor) (log : List Delivery) (event : FeedEvent)
    (hcovers : Ordered row ∧ Covers row log) (hscalar : Scalar event) :
    Ordered (applyEvent maxBackfillEvents row event) ∧
      Covers (applyEvent maxBackfillEvents row event)
        (log ++ (delivery maxBackfillEvents row event).toList) := by
  obtain ⟨hordered, hcovers⟩ := hcovers
  refine ⟨ordered_step maxBackfillEvents row event hordered, ?_⟩
  rcases delivery_cases maxBackfillEvents hordered hscalar with ⟨hnone, hsame⟩ |
    ⟨sequence, rfl, hentry, hnext⟩ | ⟨entry, prior, last, hprior, hle, hentry, hvalues, hnext⟩
  · rw [hnone, Option.toList_none, List.append_nil, Covers, hsame]
    exact hcovers
  · have hempty : log = [] := hcovers
    rw [hentry, hempty, Covers, hnext]
    refine ⟨sequence, rfl, le_rfl, ?_⟩
    rw [sequenceRange_self]
    rfl
  · rw [Covers, hprior] at hcovers
    obtain ⟨first, hhead, hfirst, hdelivered⟩ := hcovers
    rw [hentry, Covers, hnext]
    refine ⟨first, ?_, hfirst.trans hle, ?_⟩
    · rw [List.head?_append, hhead]
      rfl
    · have hboth : delivered (log ++ [entry]) = delivered log ++ entry.values := by
        simp [delivered]
      rw [Option.toList_some, hboth, hdelivered, hvalues,
        sequenceRange_append (by omega) hle]

theorem along_scalar {row : Option FeedCursor} {events : List FeedEvent}
    (hscalar : ∀ event ∈ events, Scalar event) :
    Along (applyEvent maxBackfillEvents) (fun _ event ↦ Scalar event) row events := by
  rw [along_iff]
  rintro before event after rfl
  exact hscalar event (by simp)

theorem cursor_mono {row : Option FeedCursor} (hordered : Ordered row) {prior : ℤ}
    (hprior : priorSequence row = some prior) {events : List FeedEvent}
    (hscalar : ∀ event ∈ events, Scalar event) :
    ∃ last, priorSequence (run (applyEvent maxBackfillEvents) row events) = some last ∧
      prior ≤ last := by
  have hreaches := invariant_run_of_along
    (fun row ↦ Ordered row ∧ ∃ last, priorSequence row = some last ∧ prior ≤ last)
    ⟨hordered, prior, hprior, le_rfl⟩
    (fun row event hrow hevent ↦ ?_) (along_scalar maxBackfillEvents hscalar)
  · exact hreaches.2
  obtain ⟨hordered, last, hlast, hle⟩ := hrow
  refine ⟨ordered_step maxBackfillEvents row event hordered, ?_⟩
  rcases delivery_cases maxBackfillEvents hordered hevent with ⟨-, hsame⟩ |
    ⟨sequence, rfl, -, -⟩ | ⟨entry, found, next, hfound, hnext, -, -, hafter⟩
  · exact ⟨last, hsame.trans hlast, hle⟩
  · cases hlast
  · obtain rfl : last = found := Option.some.inj (hlast.symm.trans hfound)
    exact ⟨next, hafter, hle.trans hnext⟩

/-- Along the calls of a source with scalar sequences, each sequence from the first accepted one to
the cursor is in one accepted call, and the cursor never decreases. -/
theorem delivered_exactly_once {events : List FeedEvent}
    (hscalar : ∀ event ∈ events, Scalar event) :
    (∀ last, priorSequence (run (applyEvent maxBackfillEvents) none events) = some last →
        ∃ first, (deliveries maxBackfillEvents none events).head? = some (.ingest first) ∧
          ∀ value, first ≤ value → value ≤ last →
            (deliveries maxBackfillEvents none events).countP
              (fun entry ↦ decide (value ∈ entry.values)) = 1) ∧
      ∀ before after prior, events = before ++ after →
        priorSequence (run (applyEvent maxBackfillEvents) none before) = some prior →
        ∃ last, priorSequence (run (applyEvent maxBackfillEvents) none events) = some last ∧
          prior ≤ last := by
  constructor
  · intro last hlast
    have hstart : Ordered none ∧ Covers none [] := ⟨by simp [Ordered], rfl⟩
    have hcovers := (invariant_log (delivery maxBackfillEvents)
      (fun row log ↦ Ordered row ∧ Covers row log) hstart
      (covers_step maxBackfillEvents) (along_scalar maxBackfillEvents hscalar)).2
    rw [Covers, hlast] at hcovers
    obtain ⟨first, hhead, -, hdelivered⟩ := hcovers
    refine ⟨first, hhead, fun value hfirst hvalue ↦ countP_values_eq_one ?_ ?_⟩
    · exact hdelivered ▸ nodup_sequenceRange first last
    · exact hdelivered ▸ mem_sequenceRange.mpr ⟨hfirst, hvalue⟩
  · rintro before after prior rfl hprior
    rw [run_append]
    exact cursor_mono maxBackfillEvents (ordered_run maxBackfillEvents before) hprior
      fun event hevent ↦ hscalar event (List.mem_append_right before hevent)

theorem delivered_exactly_once_backfill :
    ∃ first, (deliveries 10 none
        [.ingest 1, .ingest 4, .applyBackfill [2, 3]]).head? = some (.ingest first) ∧
      ∀ value, first ≤ value → value ≤ 3 →
        (deliveries 10 none [.ingest 1, .ingest 4, .applyBackfill [2, 3]]).countP
          (fun entry ↦ decide (value ∈ entry.values)) = 1 :=
  (delivered_exactly_once 10 (by simp [Scalar])).1 3 (by decide +kernel)

/-! ### Recovery -/

/-- The calls with which a source can be made ready again. -/
def Recovers : FeedEvent → Prop
  | .ingest _ => True
  | .applyBackfill values => values.length ≤ maxBackfillEvents
  | _ => False

/-- Some calls leave the source ready at a sequence that one of them has delivered. -/
def Recoverable (row : Option FeedCursor) : Prop :=
  ∃ calls, (∀ call ∈ calls, Recovers maxBackfillEvents call) ∧
    IsReady (run (applyEvent maxBackfillEvents) row calls) ∧
    ∃ last, priorSequence (run (applyEvent maxBackfillEvents) row calls) = some last ∧
      last ∈ delivered (deliveries maxBackfillEvents row calls)

/-- The source has no row, or its cursor can be followed. -/
def CanAdvance (row : Option FeedCursor) : Prop :=
  row = none ∨ ∃ last, priorSequence row = some last ∧ last + 1 < 2 ^ 63

theorem scalar_of_recovers {event : FeedEvent} (hrecovers : Recovers maxBackfillEvents event) :
    Scalar event := by
  cases event <;> trivial

/-- A row without a cursor never gets one from sequences and backfills. -/
theorem uninitialized_step {row : Option FeedCursor} {event : FeedEvent}
    (hrow : row ≠ none ∧ priorSequence row = none) (hrecovers : Recovers maxBackfillEvents event) :
    applyEvent maxBackfillEvents row event ≠ none ∧
      priorSequence (applyEvent maxBackfillEvents row event) = none := by
  obtain ⟨hsome, hnone⟩ := hrow
  cases event with
  | ingest sequence =>
    rw [applyEvent]
    rcases ingest_cases row sequence with ⟨-, hsame⟩ | ⟨hmissing, -, -, -, -⟩ |
      ⟨cursor, prior, rfl, hlast, -, -, -, -⟩ | ⟨cursor, rfl, -, -, -, hopens⟩
    · exact hsame.symm ▸ ⟨hsome, hnone⟩
    · exact absurd hmissing hsome
    · rw [priorSequence, Option.bind_some, hlast] at hnone
      cases hnone
    · rw [hopens]
      exact ⟨by simp, hnone⟩
  | applyBackfill values =>
    rw [applyEvent]
    rcases applyBackfill_cases maxBackfillEvents row values with ⟨-, hsame⟩ |
      ⟨cursor, prior, _, _, rfl, hlast, -, -, -, -, -, -⟩
    · exact hsame.symm ▸ ⟨hsome, hnone⟩
    · rw [priorSequence, Option.bind_some, hlast] at hnone
      cases hnone
  | recordGap prior first final previousFinal => exact hrecovers.elim
  | retireSource => exact hrecovers.elim
  | recordReadinessProof final first previousFinal isSnapshot contiguous => exact hrecovers.elim
  | classifyMetadata digest => exact hrecovers.elim
  | databaseFailed => exact hrecovers.elim

theorem along_recovers {row : Option FeedCursor} {calls : List FeedEvent}
    (hrecovers : ∀ call ∈ calls, Recovers maxBackfillEvents call) :
    Along (applyEvent maxBackfillEvents) (fun _ call ↦ Recovers maxBackfillEvents call) row
      calls := by
  rw [along_iff]
  rintro before event after rfl
  exact hrecovers event (by simp)

theorem not_recoverable_of_uninitialized {row : Option FeedCursor} (hsome : row ≠ none)
    (hnone : priorSequence row = none) : ¬ Recoverable maxBackfillEvents row := by
  rintro ⟨calls, hrecovers, -, last, hlast, -⟩
  have hstays := invariant_run_of_along (fun row ↦ row ≠ none ∧ priorSequence row = none)
    ⟨hsome, hnone⟩ (fun _ _ ↦ uninitialized_step maxBackfillEvents)
    (along_recovers maxBackfillEvents hrecovers)
  rw [hstays.2] at hlast
  cases hlast

/-- Nothing is delivered behind the largest number of the column. -/
theorem not_recoverable_of_last {row : Option FeedCursor} (hordered : Ordered row)
    (hlast : priorSequence row = some (2 ^ 63 - 1)) : ¬ Recoverable maxBackfillEvents row := by
  rintro ⟨calls, hrecovers, -, last, -, hmem⟩
  have hstays := invariant_log (delivery maxBackfillEvents)
    (fun row log ↦ (Ordered row ∧ priorSequence row = some (2 ^ 63 - 1)) ∧ delivered log = [])
    ⟨⟨hordered, hlast⟩, rfl⟩ (fun row log call hrow hcall ↦ ?_)
    (along_recovers maxBackfillEvents hrecovers)
  · rw [deliveries, hstays.2] at hmem
    cases hmem
  obtain ⟨⟨hordered, hlast⟩, hempty⟩ := hrow
  have hnext := ordered_step maxBackfillEvents row call hordered
  rcases delivery_cases maxBackfillEvents hordered (scalar_of_recovers maxBackfillEvents hcall) with
    ⟨hnone, hsame⟩ | ⟨sequence, rfl, -, -⟩ |
    ⟨entry, prior, next, hprior, hle, hentry, hvalues, hafter⟩
  · rw [hnone, Option.toList_none, List.append_nil]
    exact ⟨⟨hnext, hsame.trans hlast⟩, hempty⟩
  · cases hlast
  · obtain rfl : 2 ^ 63 - 1 = prior := Option.some.inj (hlast.symm.trans hprior)
    obtain ⟨-, hmost⟩ := hnext.cursor hafter
    obtain rfl : next = 2 ^ 63 - 1 := by omega
    refine ⟨⟨hnext, hafter⟩, ?_⟩
    have hvalues : entry.values = [] := hvalues
    rw [hentry, Option.toList_some, delivered, List.flatMap_append, List.flatMap_singleton,
      hvalues, List.append_nil]
    exact hempty

/-- The sequence behind the cursor makes a row ready that is not gapped. -/
theorem ingest_follows {cursor : FeedCursor} {prior : ℤ} (hlast : cursor.lastSequence = some prior)
    (hleast : 0 ≤ prior) (hmost : prior + 1 < 2 ^ 63) (hstate : cursor.state ≠ .gapped) :
    ∃ result, ingest (some cursor) (prior + 1) = .ok (result, some
        { cursor with lastSequence := some (prior + 1), state := .ready }) ∧
      result.accepted = true := by
  have hcheck : checkSequence "sequence" (prior + 1) = .ok () :=
    checkSequence_eq_ok.mpr ⟨by omega, hmost⟩
  have hstale : ¬ prior + 1 ≤ prior := by omega
  unfold ingest
  rw [hcheck]
  simp only [ok_bind, ingestNext, hlast, hstale, hstate, if_false, ne_eq, not_false_eq_true,
    and_self, if_true]
  exact ⟨_, rfl, rfl⟩

/-- In a gapped row it opens a gap that is empty. -/
theorem ingest_gapped {cursor : FeedCursor} {prior : ℤ} (hlast : cursor.lastSequence = some prior)
    (hleast : 0 ≤ prior) (hmost : prior + 1 < 2 ^ 63) (hstate : cursor.state = .gapped) :
    ∃ result, ingest (some cursor) (prior + 1) = .ok (result, some { cursor with
        state := .gapped
        gapFrom := some (prior + 1)
        gapTo := some prior }) ∧
      result.accepted = false := by
  have hcheck : checkSequence "sequence" (prior + 1) = .ok () :=
    checkSequence_eq_ok.mpr ⟨by omega, hmost⟩
  have hstale : ¬ prior + 1 ≤ prior := by omega
  unfold ingest
  rw [hcheck]
  simp only [ok_bind, ingestNext, openGap, hlast, hstale, hstate, if_false, ne_eq,
    not_true_eq_false, and_false, add_sub_cancel_right]
  exact ⟨_, rfl, rfl⟩

theorem recoverable_none : Recoverable maxBackfillEvents none := by
  refine ⟨[.ingest 0], by simp [Recovers], rfl, 0, rfl, ?_⟩
  exact List.mem_singleton_self 0

theorem recoverable_settled {cursor : FeedCursor} {prior : ℤ}
    (hlast : cursor.lastSequence = some prior) (hleast : 0 ≤ prior) (hmost : prior + 1 < 2 ^ 63)
    (hstate : cursor.state ≠ .gapped) : Recoverable maxBackfillEvents (some cursor) := by
  obtain ⟨result, hingest, haccepted⟩ := ingest_follows hlast hleast hmost hstate
  refine ⟨[.ingest (prior + 1)], by simp [Recovers], ?_, prior + 1, ?_, ?_⟩
  · rw [run_cons, applyEvent, hingest]
    rfl
  · rw [run_cons, applyEvent, hingest]
    rfl
  · rw [deliveries, logOf, delivery, hingest, accepts, haccepted]
    exact List.mem_singleton_self _

/-- The calls of a run can be put before those that recover the source. -/
theorem recoverable_cons {row : Option FeedCursor} (call : FeedEvent)
    (hcall : Recovers maxBackfillEvents call)
    (hafter : Recoverable maxBackfillEvents (applyEvent maxBackfillEvents row call)) :
    Recoverable maxBackfillEvents row := by
  obtain ⟨calls, hcalls, hready, last, hlast, hmem⟩ := hafter
  refine ⟨call :: calls, List.forall_mem_cons.mpr ⟨hcall, hcalls⟩, hready, last, hlast, ?_⟩
  rw [deliveries, logOf, delivered, List.flatMap_append]
  exact List.mem_append_right _ hmem

/-- A gap that is open is first replaced by an empty one, which the empty backfill closes. -/
theorem recoverable_gapped {cursor : FeedCursor} {prior : ℤ}
    (hlast : cursor.lastSequence = some prior) (hleast : 0 ≤ prior) (hmost : prior + 1 < 2 ^ 63)
    (hstate : cursor.state = .gapped) : Recoverable maxBackfillEvents (some cursor) := by
  obtain ⟨result, hingest, -⟩ := ingest_gapped hlast hleast hmost hstate
  refine recoverable_cons maxBackfillEvents (.ingest (prior + 1)) trivial ?_
  rw [applyEvent, hingest]
  refine recoverable_cons maxBackfillEvents (.applyBackfill [])
    (Nat.zero_le maxBackfillEvents) ?_
  have hempty : sequenceRange (prior + 1) prior = [] := by
    rw [sequenceRange_eq_map, show (prior + 1 - (prior + 1)).toNat = 0 by omega]
    rfl
  rw [applyEvent, rowAfter, applyBackfill]
  simp only [List.length_nil, if_false, hlast, fillGap, hempty, ne_eq,
    not_true_eq_false]
  exact recoverable_settled maxBackfillEvents rfl hleast hmost (by simp)

/-- Sequences and backfills make a source ready again, in every state that its calls can reach, just
if it has no row or a cursor that can be followed. -/
theorem recoverable_iff (events : List FeedEvent) :
    Recoverable maxBackfillEvents (run (applyEvent maxBackfillEvents) none events) ↔
      CanAdvance (run (applyEvent maxBackfillEvents) none events) := by
  have hordered := ordered_run maxBackfillEvents events
  generalize run (applyEvent maxBackfillEvents) none events = row at hordered ⊢
  constructor
  · intro hrecoverable
    by_contra hstuck
    obtain ⟨hsome, hends⟩ := not_or.mp hstuck
    cases hlast : priorSequence row with
    | none => exact not_recoverable_of_uninitialized maxBackfillEvents hsome hlast hrecoverable
    | some last =>
      have hmost := (hordered.cursor hlast).2
      have hlimit : ¬ last + 1 < 2 ^ 63 := fun hmore ↦ hends ⟨last, hlast, hmore⟩
      obtain rfl : last = 2 ^ 63 - 1 := by omega
      exact not_recoverable_of_last maxBackfillEvents hordered hlast hrecoverable
  · rintro (rfl | ⟨last, hlast, hmost⟩)
    · exact recoverable_none maxBackfillEvents
    · have hleast := (hordered.cursor hlast).1
      obtain ⟨cursor, rfl, hlast⟩ := Option.bind_eq_some_iff.mp hlast
      by_cases hstate : cursor.state = .gapped
      · exact recoverable_gapped maxBackfillEvents hlast hleast hmost hstate
      · exact recoverable_settled maxBackfillEvents hlast hleast hmost hstate

/-- A source whose metadata was seen before its first sequence stays without a cursor. -/
theorem metadata_first_never_recovers :
    ¬ Recoverable 1000 (run (applyEvent 1000) none [.classifyMetadata "a"]) :=
  not_recoverable_of_uninitialized 1000 (by decide +kernel) (by decide +kernel)

end Bongus.Feed
