import Mathlib.Data.List.Pairwise
import Mathlib.Data.List.Sort
import Mathlib.Logic.Equiv.Basic

/-!
# Histories that are read back

A history is a list of rows, each of which leads from one state to the next at a time. It is stored
under names and read in the order of the times and, within one time, of the names. If the times do
not decrease, the rows of one time are the only ones that can be read in another order than they
were written in.

Whatever the names are, the rows lead from state to state as they are read just if two rows of the
same time never change the state (`map_insertionSort_of_still`, `still_of_paths`).
-/

set_option autoImplicit false
set_option relaxedAutoImplicit false

namespace Bongus.Lib.Histories

section Paths

variable {State : Type}

/-- The edges lead from one state to another. -/
def Route : State → List (State × State) → State → Prop
  | start, [], finish => start = finish
  | start, edge :: rest, finish => edge.1 = start ∧ Route edge.2 rest finish

instance decidablePath [DecidableEq State] :
    ∀ (start : State) (edges : List (State × State)) (finish : State),
      Decidable (Route start edges finish)
  | start, [], finish => inferInstanceAs (Decidable (start = finish))
  | start, edge :: rest, finish =>
    have := decidablePath edge.2 rest finish
    inferInstanceAs (Decidable (edge.1 = start ∧ Route edge.2 rest finish))

theorem route_append {start finish : State} {first second : List (State × State)} :
    Route start (first ++ second) finish ↔
      ∃ middle, Route start first middle ∧ Route middle second finish := by
  induction first generalizing start with
  | nil => simp [Route]
  | cons edge rest ih => simp [Route, ih, and_assoc]

theorem path_end_unique {start first second : State} {edges : List (State × State)}
    (hfirst : Route start edges first) (hsecond : Route start edges second) : first = second := by
  induction edges generalizing start with
  | nil => exact hfirst.symm.trans hsecond
  | cons edge rest ih => exact ih hfirst.2 hsecond.2

/-- Two edges that lead on in both orders lead nowhere. -/
theorem loops_of_swap {start finish : State} {first second : State × State}
    {rest : List (State × State)} (hwritten : Route start (first :: second :: rest) finish)
    (hswapped : Route start (second :: first :: rest) finish) :
    first.1 = first.2 ∧ second.1 = second.2 := by
  obtain ⟨hfirst, hsecond, -⟩ := hwritten
  obtain ⟨hsecondFirst, hfirstSecond, -⟩ := hswapped
  constructor
  · rw [hfirst, ← hsecond, hsecondFirst]
  · rw [hsecondFirst, ← hfirstSecond, hfirst]

end Paths

section Reading

variable {Row State Time Name : Type} [LinearOrder Time] [LinearOrder Name]
variable {edge : Row → State × State} {time : Row → Time}

/-- The order in which rows are read. -/
def ReadBefore (time : Row → Time) (name : Row → Name) (first second : Row) : Prop :=
  time first < time second ∨ (time first = time second ∧ name first ≤ name second)

instance (time : Row → Time) (name : Row → Name) : DecidableRel (ReadBefore time name) :=
  fun first second ↦ inferInstanceAs (Decidable (time first < time second ∨
    (time first = time second ∧ name first ≤ name second)))

variable {name : Row → Name}

theorem ReadBefore.time_le {first second : Row} (hread : ReadBefore time name first second) :
    time first ≤ time second :=
  hread.elim le_of_lt fun hsame ↦ hsame.1.le

theorem ReadBefore.name_eq {first second : Row} (hread : ReadBefore time name first second)
    (hback : ReadBefore time name second first) : name first = name second := by
  rcases hread with hlater | ⟨hsame, hname⟩
  · exact absurd hback.time_le (not_le.mpr hlater)
  · rcases hback with hlater | ⟨-, hnameBack⟩
    · exact absurd hsame hlater.ne'
    · exact le_antisymm hname hnameBack

instance : Std.Total (ReadBefore time name) where
  total first second := by
    unfold ReadBefore
    rcases lt_trichotomy (time first) (time second) with hless | hsame | hgreater
    · exact .inl (.inl hless)
    · exact (le_total (name first) (name second)).imp (fun hle ↦ .inr ⟨hsame, hle⟩)
        fun hle ↦ .inr ⟨hsame.symm, hle⟩
    · exact .inr (.inl hgreater)

instance : IsTrans Row (ReadBefore time name) where
  trans first second third hfirst hsecond := by
    rcases hfirst with hless | ⟨hsame, hname⟩
    · exact .inl (hless.trans_le hsecond.time_le)
    · rcases hsecond with hless | ⟨hsameAgain, hnameAgain⟩
      · exact .inl (hsame.trans_lt hless)
      · exact .inr ⟨hsame.trans hsameAgain, hname.trans hnameAgain⟩

theorem pairwise_readBack (name : Row → Name) (rows : List Row) :
    (rows.insertionSort (ReadBefore time name)).Pairwise (ReadBefore time name) :=
  List.pairwise_insertionSort _ rows

/-- Rows whose names are different are read in one order only. -/
theorem readBack_eq {rows ordered : List Row}
    (hname : ∀ first ∈ rows, ∀ second ∈ rows, name first = name second → first = second)
    (hperm : ordered.Perm rows) (hordered : ordered.Pairwise (ReadBefore time name)) :
    rows.insertionSort (ReadBefore time name) = ordered := by
  have hsame := (List.perm_insertionSort (ReadBefore time name) rows).trans hperm.symm
  refine hsame.eq_of_pairwise (fun first second hfirst hsecond hread hback ↦ ?_)
    (pairwise_readBack name rows) hordered
  exact hname first ((List.perm_insertionSort _ rows).mem_iff.mp hfirst) second
    (hperm.mem_iff.mp hsecond) (hread.name_eq hback)

/-! ### Rows that change nothing -/

/-- The row does not change the state. -/
def Loops (edge : Row → State × State) (row : Row) : Prop := (edge row).1 = (edge row).2

/-- Two rows of one time change nothing. -/
def Still (edge : Row → State × State) (time : Row → Time) (first second : Row) : Prop :=
  time first = time second → Loops edge first ∧ Loops edge second

/-- Between two rows of one time there are only rows of that time. -/
theorem time_next_eq {row next other : Row} {rest : List Row}
    (htimes : (row :: next :: rest).Pairwise fun first second ↦ time first ≤ time second)
    (hother : other ∈ next :: rest) (hsame : time row = time other) : time row = time next := by
  refine le_antisymm (List.rel_of_pairwise_cons htimes List.mem_cons_self) ?_
  rw [hsame]
  rcases List.mem_cons.mp hother with rfl | hother
  · exact le_rfl
  · exact List.rel_of_pairwise_cons htimes.of_cons hother

/-- The rows of one time have the same edge if they change nothing. -/
theorem edge_eq_of_still {start finish : State} {rows : List Row}
    (hpath : Route start (rows.map edge) finish)
    (htimes : rows.Pairwise fun first second ↦ time first ≤ time second)
    (hstill : rows.Pairwise (Still edge time)) :
    rows.Pairwise fun first second ↦ time first = time second → edge first = edge second := by
  induction rows generalizing start with
  | nil => exact .nil
  | cons row rest ih =>
    have hrest := ih hpath.2 htimes.of_cons hstill.of_cons
    refine List.pairwise_cons.mpr ⟨fun other hother hsame ↦ ?_, hrest⟩
    cases rest with
    | nil => exact absurd hother List.not_mem_nil
    | cons next rest =>
      -- The next row has the time of the two, and starts where the first one does.
      have hnext := time_next_eq htimes hother hsame
      obtain ⟨hrow, hloops⟩ := List.rel_of_pairwise_cons hstill List.mem_cons_self hnext
      have hstart : (edge next).1 = (edge row).2 := hpath.2.1
      have hedge : edge row = edge next := by
        unfold Loops at hrow hloops
        refine Prod.ext ?_ ?_
        · rw [hrow, hstart]
        · rw [← hloops, hstart]
      rcases List.mem_cons.mp hother with rfl | hother
      · exact hedge
      · rw [hedge]
        exact List.rel_of_pairwise_cons hrest hother (hnext.symm.trans hsame)

/-- If rows of one time change nothing, the edges are read as they were written. -/
theorem map_insertionSort_of_still {start finish : State} {rows : List Row}
    (hpath : Route start (rows.map edge) finish)
    (htimes : rows.Pairwise fun first second ↦ time first ≤ time second)
    (hstill : rows.Pairwise (Still edge time)) (name : Row → Name) :
    (rows.insertionSort (ReadBefore time name)).map edge = rows.map edge := by
  have hsymmetric : Std.Symm fun first second : Row ↦ time first = time second →
      edge first = edge second := ⟨fun _ _ hsame htime ↦ (hsame htime.symm).symm⟩
  have hedges := (edge_eq_of_still hpath htimes hstill).forall_of_forall fun _ _ _ ↦ rfl
  have hperm := List.perm_insertionSort (ReadBefore time name) rows
  -- Both lists are sorted by the times, and the time of a row says what its edge is.
  have hread : ((rows.insertionSort (ReadBefore time name)).map fun row ↦
      (time row, edge row)).Pairwise fun first second ↦ first.1 ≤ second.1 :=
    List.pairwise_map.mpr ((pairwise_readBack name rows).imp ReadBefore.time_le)
  have hwritten : (rows.map fun row ↦ (time row, edge row)).Pairwise
      fun first second ↦ first.1 ≤ second.1 := List.pairwise_map.mpr htimes
  have hsame := (hperm.map _).eq_of_pairwise (fun first second hfirst hsecond hle hge ↦ by
    obtain ⟨row, hrow, rfl⟩ := List.mem_map.mp hfirst
    obtain ⟨other, hother, rfl⟩ := List.mem_map.mp hsecond
    have htime : time row = time other := le_antisymm hle hge
    exact Prod.ext htime (hedges (hperm.mem_iff.mp hrow) hother htime)) hread hwritten
  have hedge := congrArg (List.map Prod.snd) hsame
  rwa [List.map_map, List.map_map] at hedge

/-! ### Names that exchange two rows -/

theorem readBefore_of_le {first second : Row} (htime : time first ≤ time second)
    (hname : name first ≤ name second) : ReadBefore time name first second :=
  htime.lt_or_eq.imp_right fun hsame ↦ ⟨hsame, hname⟩

/-- Two adjacent rows of one time are read in the other order if their names are exchanged. -/
theorem readBack_swap {place : Row → ℕ} {names : ℕ → Name} (hnames : StrictMono names)
    {before after : List Row} {first second : Row}
    (htimes : (before ++ first :: second :: after).Pairwise fun row other ↦ time row ≤ time other)
    (hplaces : (before ++ first :: second :: after).Pairwise
      fun row other ↦ place row < place other) (hsame : time first = time second) :
    (before ++ first :: second :: after).insertionSort (ReadBefore time fun row ↦
        names (Equiv.swap (place first) (place second) (place row))) =
      before ++ second :: first :: after := by
  have hdistinct : ((before ++ first :: second :: after).map place).Nodup :=
    List.pairwise_map.mpr (hplaces.imp ne_of_lt)
  refine readBack_eq ?_ ((List.Perm.swap first second after).append_left before) ?_
  · intro row hrow other hother hname
    exact List.inj_on_of_nodup_map hdistinct hrow hother
      ((Equiv.swap _ _).injective (hnames.injective hname))
  · simp only [List.pairwise_append, List.pairwise_cons, List.mem_cons, forall_eq_or_imp]
      at htimes hplaces ⊢
    obtain ⟨htimeBefore, ⟨⟨-, htimeFirst⟩, htimeSecond, htimeAfter⟩, htimeAcross⟩ := htimes
    obtain ⟨hbefore, ⟨⟨hless, hfirst⟩, hsecond, hafter⟩, hacross⟩ := hplaces
    -- The exchange keeps the places of all other rows.
    have hkeptBefore : ∀ row ∈ before,
        Equiv.swap (place first) (place second) (place row) = place row := fun row hrow ↦
      Equiv.swap_apply_of_ne_of_ne (hacross row hrow).1.ne (hacross row hrow).2.1.ne
    have hkeptAfter : ∀ row ∈ after,
        Equiv.swap (place first) (place second) (place row) = place row := fun row hrow ↦
      Equiv.swap_apply_of_ne_of_ne (hfirst row hrow).ne' (hsecond row hrow).ne'
    refine ⟨?_, ⟨⟨?_, fun row hrow ↦ ?_⟩, fun row hrow ↦ ?_, ?_⟩, fun row hrow ↦ ⟨?_, ?_, ?_⟩⟩
    · refine (htimeBefore.and hbefore).imp_of_mem fun {row other} hrow hother hordered ↦ ?_
      refine readBefore_of_le hordered.1 (hnames.monotone ?_)
      rw [hkeptBefore row hrow, hkeptBefore other hother]
      exact hordered.2.le
    · refine readBefore_of_le hsame.ge (hnames.monotone ?_)
      rw [Equiv.swap_apply_right, Equiv.swap_apply_left]
      exact hless.le
    · refine readBefore_of_le (htimeSecond row hrow) (hnames.monotone ?_)
      rw [Equiv.swap_apply_right, hkeptAfter row hrow]
      exact (hfirst row hrow).le
    · refine readBefore_of_le (htimeFirst row hrow) (hnames.monotone ?_)
      rw [Equiv.swap_apply_left, hkeptAfter row hrow]
      exact (hsecond row hrow).le
    · refine (htimeAfter.and hafter).imp_of_mem fun {row other} hrow hother hordered ↦ ?_
      refine readBefore_of_le hordered.1 (hnames.monotone ?_)
      rw [hkeptAfter row hrow, hkeptAfter other hother]
      exact hordered.2.le
    · refine readBefore_of_le (htimeAcross row hrow).2.1 (hnames.monotone ?_)
      rw [Equiv.swap_apply_right, hkeptBefore row hrow]
      exact (hacross row hrow).1.le
    · refine readBefore_of_le (htimeAcross row hrow).1 (hnames.monotone ?_)
      rw [Equiv.swap_apply_left, hkeptBefore row hrow]
      exact (hacross row hrow).2.1.le
    · intro other hother
      refine readBefore_of_le ((htimeAcross row hrow).2.2 other hother) (hnames.monotone ?_)
      rw [hkeptBefore row hrow, hkeptAfter other hother]
      exact ((hacross row hrow).2.2 other hother).le

/-- If adjacent rows of one time change nothing, so do all rows of one time. -/
theorem still_of_adjacent {rows : List Row}
    (htimes : rows.Pairwise fun first second ↦ time first ≤ time second)
    (hadjacent : ∀ before first second after, rows = before ++ first :: second :: after →
      Still edge time first second) : rows.Pairwise (Still edge time) := by
  induction rows with
  | nil => exact .nil
  | cons row rest ih =>
    have hrest : rest.Pairwise (Still edge time) := ih htimes.of_cons
      fun before first second after hsplit ↦
        hadjacent (row :: before) first second after (by rw [hsplit]; rfl)
    refine List.pairwise_cons.mpr ⟨fun other hother hsame ↦ ?_, hrest⟩
    cases rest with
    | nil => exact absurd hother List.not_mem_nil
    | cons next rest =>
      have hnext := time_next_eq htimes hother hsame
      have hstill := hadjacent [] row next rest rfl hnext
      rcases List.mem_cons.mp hother with rfl | hother
      · exact hstill
      · exact ⟨hstill.1,
          (List.rel_of_pairwise_cons hrest hother (hnext.symm.trans hsame)).2⟩

/-- If the rows lead on whatever the names are, two rows of one time change nothing. -/
theorem still_of_paths {place : Row → ℕ} {names : ℕ → Name} (hnames : StrictMono names)
    {start finish : State} {rows : List Row}
    (htimes : rows.Pairwise fun first second ↦ time first ≤ time second)
    (hplaces : rows.Pairwise fun first second ↦ place first < place second)
    (hpath : Route start (rows.map edge) finish)
    (hpaths : ∀ name : ℕ → Name, Function.Injective name →
      Route start ((rows.insertionSort (ReadBefore time fun row ↦ name (place row))).map edge)
        finish) :
    rows.Pairwise (Still edge time) := by
  refine still_of_adjacent htimes fun before first second after hsplit hsame ↦ ?_
  subst hsplit
  have hswapped := hpaths (fun index ↦ names (Equiv.swap (place first) (place second) index))
    (hnames.injective.comp (Equiv.swap _ _).injective)
  rw [readBack_swap hnames htimes hplaces hsame] at hswapped
  rw [List.map_append] at hpath hswapped
  obtain ⟨middle, hbefore, hwritten⟩ := route_append.mp hpath
  obtain ⟨other, hbeforeAgain, hexchanged⟩ := route_append.mp hswapped
  obtain rfl := path_end_unique hbefore hbeforeAgain
  exact loops_of_swap hwritten hexchanged

end Reading

end Bongus.Lib.Histories
