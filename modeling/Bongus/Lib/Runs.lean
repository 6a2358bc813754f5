import Mathlib.Data.List.Infix

/-!
# Runs of a step function

A system is a step function on its states, and a run is a list of events taken one after the
other. `Along` says that every event of a run meets a condition in the state in which it is taken.
`invariant_run` is the induction rule for what every step keeps, and `invariant_run_of_along` the
one for what a step keeps when its condition holds. `law_iff_along` is the rule for a law that
holds in every state just if the condition does. `along_iff` reads the condition off at each
point of the run, and `lockstep_iff_along` compares two systems. `Stepwise` is a property of a
history that compares each entry with those before. `logOf` collects what the steps of a run emit,
and `invariant_log` is the induction rule for what holds between the state and the log.
-/

set_option autoImplicit false
set_option relaxedAutoImplicit false

namespace Bongus.Lib.Runs

variable {State Event : Type*}

/-- The state after a list of events. -/
def run (step : State → Event → State) (start : State) (events : List Event) : State :=
  events.foldl step start

/-- Every event of the run meets `allowed` in the state in which it is taken. -/
def Along (step : State → Event → State) (allowed : State → Event → Prop) :
    State → List Event → Prop
  | _, [] => True
  | state, event :: rest => allowed state event ∧ Along step allowed (step state event) rest

variable {step : State → Event → State} {allowed : State → Event → Prop}

@[simp] theorem run_nil (start : State) : run step start [] = start := rfl

@[simp] theorem run_cons (start : State) (event : Event) (rest : List Event) :
    run step start (event :: rest) = run step (step start event) rest := rfl

theorem run_append (start : State) (first second : List Event) :
    run step start (first ++ second) = run step (run step start first) second :=
  List.foldl_append

theorem run_concat (start : State) (events : List Event) (event : Event) :
    run step start (events ++ [event]) = step (run step start events) event := by
  rw [run_append]
  rfl

theorem along_append (start : State) (first second : List Event) :
    Along step allowed start (first ++ second) ↔
      Along step allowed start first ∧ Along step allowed (run step start first) second := by
  induction first generalizing start with
  | nil => simp [Along]
  | cons event rest ih => simp [Along, ih, and_assoc]

/-- The condition along a run, read at each of its points. -/
theorem along_iff (start : State) (events : List Event) :
    Along step allowed start events ↔
      ∀ before event after, events = before ++ event :: after →
        allowed (run step start before) event := by
  constructor
  · rintro halong before event after rfl
    exact ((along_append start before (event :: after)).mp halong).2.1
  · intro hpoint
    induction events generalizing start with
    | nil => trivial
    | cons event rest ih =>
      refine ⟨hpoint [] event rest rfl, ih _ fun before next after hsplit ↦ ?_⟩
      exact hpoint (event :: before) next after (by rw [hsplit]; rfl)

/-- What holds at the start and is kept by every step holds after every run. -/
theorem invariant_run (invariant : State → Prop) {start : State} (hstart : invariant start)
    (hstep : ∀ state event, invariant state → invariant (step state event))
    (events : List Event) : invariant (run step start events) := by
  induction events generalizing start with
  | nil => exact hstart
  | cons event rest ih => exact ih (hstep start event hstart)

/-- What holds at the start and is kept by every step that meets its condition holds after every
run along which the condition holds. -/
theorem invariant_run_of_along (invariant : State → Prop) {start : State}
    (hstart : invariant start)
    (hstep : ∀ state event, invariant state → allowed state event →
      invariant (step state event))
    {events : List Event} (halong : Along step allowed start events) :
    invariant (run step start events) := by
  induction events generalizing start with
  | nil => exact hstart
  | cons event rest ih => exact ih (hstep start event hstart halong.1) halong.2

/-- A law holds in every state of a run just if each step meets its condition, where an invariant
that brings the law with it is kept by the steps that do, and the law is lost by those that do
not. -/
theorem law_iff_along {regular : State → Event → Prop} (invariant law : State → Prop)
    (hlaw : ∀ state, invariant state → law state)
    (hstep : ∀ state event, invariant state → regular state event → allowed state event →
      invariant (step state event))
    (hneeded : ∀ state event, invariant state → regular state event → law (step state event) →
      allowed state event)
    {start : State} (hstart : invariant start) {events : List Event}
    (hregular : Along step regular start events) :
    (∀ before, before <+: events → law (run step start before)) ↔
      Along step allowed start events := by
  induction events generalizing start with
  | nil =>
    refine iff_of_true (fun before hbefore ↦ ?_) trivial
    rw [List.prefix_nil.mp hbefore]
    exact hlaw start hstart
  | cons event rest ih =>
    constructor
    · intro hall
      have hlater : law (step start event) := hall [event] ⟨rest, rfl⟩
      have hallowed := hneeded start event hstart hregular.1 hlater
      refine ⟨hallowed, (ih (hstep start event hstart hregular.1 hallowed) hregular.2).mp ?_⟩
      intro before hbefore
      exact hall (event :: before) ((List.prefix_cons_inj event).mpr hbefore)
    · rintro ⟨hallowed, halong⟩ before hbefore
      cases before with
      | nil => exact hlaw start hstart
      | cons first before =>
        obtain ⟨rfl, hrest⟩ := List.cons_prefix_cons.mp hbefore
        exact (ih (hstep start first hstart hregular.1 hallowed) hregular.2).mpr halong before
          hrest

instance decidableAlong [∀ state event, Decidable (allowed state event)] :
    ∀ (start : State) (events : List Event), Decidable (Along step allowed start events)
  | _, [] => .isTrue trivial
  | start, event :: rest =>
    have := decidableAlong (step start event) rest
    inferInstanceAs (Decidable (allowed start event ∧ Along step allowed (step start event) rest))

/-! ### Two systems in step -/

/-- Two systems give the same results and states at every point of a run just if they do so in every
state that the first one reaches. -/
theorem lockstep_iff_along {Result : Type*} (first second : State → Event → Result × State)
    (start : State) (events : List Event) :
    (∀ before event after, events = before ++ event :: after →
        first (run (fun state event ↦ (first state event).2) start before) event =
          second (run (fun state event ↦ (second state event).2) start before) event) ↔
      Along (fun state event ↦ (first state event).2)
        (fun state event ↦ first state event = second state event) start events := by
  constructor
  · intro hsame
    induction events generalizing start with
    | nil => trivial
    | cons event rest ih =>
      have hfirst : first start event = second start event := hsame [] event rest rfl
      refine ⟨hfirst, ih _ fun before later after hsplit ↦ ?_⟩
      have hlater := hsame (event :: before) later after (by rw [hsplit]; rfl)
      rw [run_cons, run_cons, ← hfirst] at hlater
      exact hlater
  · intro halong
    induction events generalizing start with
    | nil =>
      intro before event after hsplit
      simp at hsplit
    | cons event rest ih =>
      intro before later after hsplit
      cases before with
      | nil =>
        obtain ⟨rfl, -⟩ := List.cons.inj hsplit
        exact halong.1
      | cons earlier before =>
        obtain ⟨rfl, hrest⟩ := List.cons.inj hsplit
        rw [run_cons, run_cons, ← halong.1]
        exact ih _ halong.2 before later after hrest

/-! ### Histories -/

variable {α : Type*}

/-- What the steps of a run emit, in order. -/
def logOf (step : State → Event → State) (emit : State → Event → Option α) :
    State → List Event → List α
  | _, [] => []
  | state, event :: rest => (emit state event).toList ++ logOf step emit (step state event) rest

theorem logOf_append {emit : State → Event → Option α} (start : State)
    (first second : List Event) :
    logOf step emit start (first ++ second) =
      logOf step emit start first ++ logOf step emit (run step start first) second := by
  induction first generalizing start with
  | nil => rfl
  | cons event rest ih =>
    rw [List.cons_append, logOf, logOf, ih, List.append_assoc]
    rfl

/-- What holds between the state and the log at the start, and is kept by every step that meets its
condition, holds after every run along which the condition holds. -/
theorem invariant_log (emit : State → Event → Option α) (invariant : State → List α → Prop)
    {start : State} (hstart : invariant start [])
    (hstep : ∀ state log event, invariant state log → allowed state event →
      invariant (step state event) (log ++ (emit state event).toList))
    {events : List Event} (halong : Along step allowed start events) :
    invariant (run step start events) (logOf step emit start events) := by
  suffices hall : ∀ log, invariant start log →
      invariant (run step start events) (log ++ logOf step emit start events) from hall [] hstart
  clear hstart
  induction events generalizing start with
  | nil =>
    intro log hlog
    rw [logOf, List.append_nil]
    exact hlog
  | cons event rest ih =>
    intro log hlog
    rw [logOf, ← List.append_assoc]
    exact ih halong.2 _ (hstep start log event hlog halong.1)

/-- Each entry of a history is good after the entries before it. -/
def Stepwise (good : List α → α → Prop) (history : List α) : Prop :=
  ∀ before entry after, history = before ++ entry :: after → good before entry

theorem stepwise_nil (good : List α → α → Prop) : Stepwise good [] := by
  intro before entry after hsplit
  simp at hsplit

theorem stepwise_concat {good : List α → α → Prop} {history : List α} {last : α} :
    Stepwise good (history ++ [last]) ↔ Stepwise good history ∧ good history last := by
  constructor
  · intro hgood
    refine ⟨fun before entry after hsplit ↦ ?_, hgood history last [] rfl⟩
    exact hgood before entry (after ++ [last]) (by rw [hsplit]; simp)
  · rintro ⟨hgood, hlast⟩ before entry after hsplit
    rcases List.eq_nil_or_concat after with rfl | ⟨after, final, rfl⟩
    · obtain ⟨rfl, hentry⟩ := List.append_inj' hsplit rfl
      rw [← List.singleton_inj.mp hentry]
      exact hlast
    · rw [List.concat_eq_append, ← List.cons_append, ← List.append_assoc] at hsplit
      obtain ⟨hhistory, -⟩ := List.append_inj' hsplit rfl
      exact hgood before entry after hhistory

end Bongus.Lib.Runs
