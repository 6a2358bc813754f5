import Mathlib

/-!
# Arithmetic progressions of integers

The points `anchor + k * step` for all integers `k`, in both directions. `next` is the least of them
after a number (`isLeast_next`), and one step before it is the greatest one up to that number
(`isGreatest_previous`). `between` lists those after one number and up to another, in increasing
order (`mem_between`, `sortedLT_between`).
-/

set_option autoImplicit false
set_option relaxedAutoImplicit false

namespace Bongus.Lib.Progressions

def progression (anchor step : ℤ) : Set ℤ := {x | ∃ k : ℤ, x = anchor + k * step}

/-- The least point after a number. -/
def next (anchor step x : ℤ) : ℤ := anchor + ((x - anchor) / step + 1) * step

/-- The points from one of them on, up to a bound. -/
def points (step stop current : ℤ) : List ℤ :=
  (List.range ((stop - current) / step + 1).toNat).map fun i : ℕ ↦ current + i * step

/-- The points after one number and up to another. -/
def between (anchor step start stop : ℤ) : List ℤ := points step stop (next anchor step start)

variable {anchor step : ℤ}

theorem next_mem (x : ℤ) : next anchor step x ∈ progression anchor step := ⟨_, rfl⟩

theorem add_mem {x : ℤ} (hx : x ∈ progression anchor step) (k : ℤ) :
    x + k * step ∈ progression anchor step := by
  obtain ⟨n, rfl⟩ := hx
  exact ⟨n + k, by ring⟩

section Positive

variable (hstep : 0 < step)

include hstep

theorem lt_next (x : ℤ) : x < next anchor step x := by
  have hfloor := Int.lt_ediv_add_one_mul_self (x - anchor) hstep
  unfold next
  linarith

theorem next_le_add (x : ℤ) : next anchor step x ≤ x + step := by
  have hfloor := Int.ediv_mul_le (x - anchor) hstep.ne'
  unfold next
  linarith

/-- Two points that are less than a step apart are one point. -/
theorem le_of_lt_add {x y : ℤ} (hx : x ∈ progression anchor step)
    (hy : y ∈ progression anchor step) (hlt : x < y + step) : x ≤ y := by
  obtain ⟨n, rfl⟩ := hx
  obtain ⟨m, rfl⟩ := hy
  have hmul : n * step < (m + 1) * step := by linarith
  have hle : n ≤ m := Int.lt_add_one_iff.mp (lt_of_mul_lt_mul_right hmul hstep.le)
  linarith [mul_le_mul_of_nonneg_right hle hstep.le]

theorem isLeast_next (x : ℤ) :
    IsLeast {y | y ∈ progression anchor step ∧ x < y} (next anchor step x) := by
  refine ⟨⟨next_mem x, lt_next hstep x⟩, fun y hy ↦ ?_⟩
  exact le_of_lt_add hstep (next_mem x) hy.1 ((next_le_add hstep x).trans_lt (by linarith [hy.2]))

theorem isGreatest_previous (x : ℤ) :
    IsGreatest {y | y ∈ progression anchor step ∧ y ≤ x} (next anchor step x - step) := by
  have hback : next anchor step x + -1 * step ∈ progression anchor step := add_mem (next_mem x) (-1)
  have hlt : x < next anchor step x := lt_next hstep x
  have hle : next anchor step x ≤ x + step := next_le_add hstep x
  rw [show next anchor step x - step = next anchor step x + -1 * step by ring]
  refine ⟨⟨hback, by linarith⟩, fun y hy ↦ ?_⟩
  exact le_of_lt_add hstep hy.1 hback (by linarith [hy.2])

/-! ### Lists of points -/

theorem points_of_lt {stop current : ℤ} (hlt : stop < current) : points step stop current = [] := by
  have hnone : (stop - current) / step + 1 ≤ 0 := by
    have hneg : (stop - current) / step < 0 := Int.ediv_neg_of_neg_of_pos (by linarith) hstep
    linarith
  rw [points, Int.toNat_of_nonpos hnone]
  rfl

theorem points_of_le {stop current : ℤ} (hle : current ≤ stop) :
    points step stop current = current :: points step stop (current + step) := by
  have hquotient : (stop - (current + step)) / step + 1 = (stop - current) / step := by
    rw [show stop - (current + step) = stop - current + (-1) * step by ring,
      Int.add_mul_ediv_right _ _ hstep.ne']
    ring
  have hnonneg : 0 ≤ (stop - current) / step := Int.ediv_nonneg (by linarith) hstep.le
  rw [points, points, hquotient, Int.toNat_add hnonneg zero_le_one, Int.toNat_one,
    List.range_succ_eq_map, List.map_cons, List.map_map]
  congr 1
  · simp
  · refine List.map_congr_left fun i _ ↦ ?_
    simp only [Function.comp_apply, Nat.succ_eq_add_one]
    push_cast
    ring

theorem mem_points {stop current x : ℤ} :
    x ∈ points step stop current ↔ x ∈ progression current step ∧ current ≤ x ∧ x ≤ stop := by
  simp only [points, List.mem_map, List.mem_range]
  constructor
  · rintro ⟨i, hi, rfl⟩
    have hle : (i : ℤ) ≤ (stop - current) / step := by omega
    have hmul := (Int.le_ediv_iff_mul_le hstep).mp hle
    exact ⟨⟨i, rfl⟩, by linarith [mul_nonneg (Int.natCast_nonneg i) hstep.le], by linarith⟩
  · rintro ⟨⟨k, rfl⟩, hfrom, hto⟩
    have hk : 0 ≤ k := nonneg_of_mul_nonneg_left (by linarith) hstep
    have hle : k ≤ (stop - current) / step := (Int.le_ediv_iff_mul_le hstep).mpr (by linarith)
    refine ⟨k.toNat, by omega, ?_⟩
    rw [Int.toNat_of_nonneg hk]

theorem sortedLT_points (stop current : ℤ) : (points step stop current).SortedLT := by
  rw [List.sortedLT_iff_pairwise, points, List.pairwise_map]
  refine List.pairwise_lt_range.imp fun {i j} hij ↦ ?_
  have hlt : (i : ℤ) * step < j * step := mul_lt_mul_of_pos_right (by exact_mod_cast hij) hstep
  linarith

theorem mem_between {start stop x : ℤ} :
    x ∈ between anchor step start stop ↔
      x ∈ progression anchor step ∧ start < x ∧ x ≤ stop := by
  rw [between, mem_points hstep]
  constructor
  · rintro ⟨⟨k, rfl⟩, hfrom, hto⟩
    exact ⟨add_mem (next_mem start) k, (lt_next hstep start).trans_le hfrom, hto⟩
  · rintro ⟨hx, hstart, hstop⟩
    refine ⟨?_, (isLeast_next hstep start).2 ⟨hx, hstart⟩, hstop⟩
    obtain ⟨n, rfl⟩ := hx
    exact ⟨n - ((start - anchor) / step + 1), by unfold next; ring⟩

theorem sortedLT_between (start stop : ℤ) : (between anchor step start stop).SortedLT :=
  sortedLT_points hstep stop _

theorem next_of_mem {current : ℤ} (hmem : current ∈ progression anchor step) (x : ℤ) :
    next current step x = next anchor step x := by
  obtain ⟨k, rfl⟩ := hmem
  have hquotient : (x - (anchor + k * step)) / step = (x - anchor) / step - k := by
    rw [show x - (anchor + k * step) = x - anchor + (-k) * step by ring,
      Int.add_mul_ediv_right _ _ hstep.ne']
    ring
  unfold next
  rw [hquotient]
  ring

/-- After the points of a range comes the first point behind it. -/
theorem next_add_length_between {start stop : ℤ} (hrange : start ≤ stop) :
    next anchor step start + (between anchor step start stop).length * step =
      next anchor step stop := by
  have hle : next anchor step start ≤ start + step := next_le_add hstep start
  have hquotient : -1 ≤ (stop - next anchor step start) / step :=
    (Int.le_ediv_iff_mul_le hstep).mpr (by linarith)
  rw [between, points, List.length_map, List.length_range, Int.toNat_of_nonneg (by linarith),
    ← next_of_mem hstep (next_mem start) stop]
  rfl

/-- An increasing list with the points of a range is the list of them. -/
theorem eq_between {start stop : ℤ} {xs : List ℤ} (hsorted : xs.SortedLT)
    (hmem : ∀ x, x ∈ xs ↔ x ∈ progression anchor step ∧ start < x ∧ x ≤ stop) :
    xs = between anchor step start stop := by
  have hsame : xs.Perm (between anchor step start stop) :=
    (List.perm_ext_iff_of_nodup hsorted.nodup (sortedLT_between hstep start stop).nodup).mpr
      fun x ↦ (hmem x).trans (mem_between hstep).symm
  exact hsame.eq_of_pairwise (fun _ _ _ _ hlt hgt ↦ absurd hlt hgt.not_gt)
    (List.sortedLT_iff_pairwise.mp hsorted)
    (List.sortedLT_iff_pairwise.mp (sortedLT_between hstep start stop))

/-- The points of a range are those of its two parts. -/
theorem between_append {start middle stop : ℤ} (hstart : start ≤ middle) (hstop : middle ≤ stop) :
    between anchor step start middle ++ between anchor step middle stop =
      between anchor step start stop := by
  refine eq_between hstep ?_ fun x ↦ ?_
  · rw [List.sortedLT_iff_pairwise, List.pairwise_append]
    refine ⟨List.sortedLT_iff_pairwise.mp (sortedLT_between hstep _ _),
      List.sortedLT_iff_pairwise.mp (sortedLT_between hstep _ _), fun x hx y hy ↦ ?_⟩
    exact ((mem_between hstep).mp hx).2.2.trans_lt ((mem_between hstep).mp hy).2.1
  · rw [List.mem_append, mem_between hstep, mem_between hstep]
    constructor
    · rintro (⟨hx, hfrom, hto⟩ | ⟨hx, hfrom, hto⟩)
      · exact ⟨hx, hfrom, hto.trans hstop⟩
      · exact ⟨hx, hstart.trans_lt hfrom, hto⟩
    · rintro ⟨hx, hfrom, hto⟩
      rcases le_or_gt x middle with hle | hgt
      · exact Or.inl ⟨hx, hfrom, hle⟩
      · exact Or.inr ⟨hx, hgt, hto⟩

end Positive

end Bongus.Lib.Progressions
