import Mathlib.Data.Int.Order.Basic
import Mathlib.Data.List.Sort
import Mathlib.Data.List.Range

/-!
# Walk-forward splits without leakage

`purged_walk_forward_splits` of `bongus/research/feature_store.py`. The samples are in the order of
their decisions. The tests are blocks of consecutive samples, and the training set of a block is
purged: it holds the samples before the block whose label was known, by an embargo, before the
first decision of the block. A block with too little to train on is left out.

Times are microseconds. That a time has a zone, and that it does not leave the range of `datetime`,
is left out.
-/

set_option autoImplicit false
set_option relaxedAutoImplicit false

namespace Bongus.Research.WalkForward

structure Split where
  train : List ℕ
  test : List ℕ
deriving DecidableEq, Repr

section Loop

variable (decisions labelEnds : List ℤ) (minimumTrainSize testSize : ℕ) (embargo : ℤ)

def testIndices (start : ℕ) : List ℕ :=
  List.range' start (min decisions.length (start + testSize) - start)

def trainIndices (start : ℕ) : List ℕ :=
  let cutoff := decisions.getD start 0 - embargo
  (List.range start).filter fun index ↦ labelEnds.getD index 0 < cutoff

/-- The loop over the beginnings of the test blocks. -/
def splitsFrom (start : ℕ) : List Split :=
  if start < decisions.length ∧ 0 < testSize then
    let train := trainIndices decisions labelEnds embargo start
    (if train.length ≥ minimumTrainSize then [⟨train, testIndices decisions testSize start⟩]
      else []) ++ splitsFrom (start + testSize)
  else []
termination_by decisions.length - start

end Loop

def purgedWalkForwardSplits (decisions labelEnds : List ℤ) (minimumTrainSize testSize embargo : ℤ) :
    Except String (List Split) :=
  if decisions.length ≠ labelEnds.length then .error "decision and label-end times must align"
  else if minimumTrainSize ≤ 0 ∨ testSize ≤ 0 ∨ embargo < 0 then
    .error "split sizes must be positive and embargo non-negative"
  else if decisions ≠ decisions.mergeSort (· ≤ ·) then
    .error "decision times must be chronological"
  else
    .ok (splitsFrom decisions labelEnds minimumTrainSize.toNat testSize.toNat embargo
      minimumTrainSize.toNat)

/-! ### The blocks -/

section Blocks

variable {decisions labelEnds : List ℤ} {minimumTrainSize testSize : ℕ} {embargo : ℤ}

theorem mem_testIndices {start index : ℕ} :
    index ∈ testIndices decisions testSize start ↔
      start ≤ index ∧ index < start + testSize ∧ index < decisions.length := by
  rw [testIndices, List.mem_range'_1]
  omega

theorem mem_trainIndices {start index : ℕ} :
    index ∈ trainIndices decisions labelEnds embargo start ↔
      index < start ∧ labelEnds.getD index 0 + embargo < decisions.getD start 0 := by
  rw [trainIndices, List.mem_filter, List.mem_range, decide_eq_true_eq]
  omega

theorem length_trainIndices {start : ℕ} :
    (trainIndices decisions labelEnds embargo start).length =
      (List.range start).countP fun index ↦
        labelEnds.getD index 0 + embargo < decisions.getD start 0 := by
  rw [trainIndices, List.countP_eq_length_filter]
  congr 2
  funext index
  rw [decide_eq_decide]
  omega

theorem getD_le_getD (hsorted : decisions.Pairwise (· ≤ ·)) {first later : ℕ}
    (horder : first ≤ later) (hlater : later < decisions.length) :
    decisions.getD first 0 ≤ decisions.getD later 0 := by
  have hfirst := horder.trans_lt hlater
  have hget : decisions[first] ≤ decisions[later] :=
    hsorted.sortedLE.getElem_le_getElem_of_le horder
  simpa [List.getD, hfirst, hlater] using hget

/-- A split is the block at one of the beginnings, with enough to train on. -/
theorem mem_splitsFrom (hsize : 0 < testSize) {start : ℕ} {split : Split} :
    split ∈ splitsFrom decisions labelEnds minimumTrainSize testSize embargo start ↔
      ∃ block, start + block * testSize < decisions.length ∧
        minimumTrainSize ≤
          (trainIndices decisions labelEnds embargo (start + block * testSize)).length ∧
        split = ⟨trainIndices decisions labelEnds embargo (start + block * testSize),
          testIndices decisions testSize (start + block * testSize)⟩ := by
  induction hleft : decisions.length - start using Nat.strong_induction_on generalizing start with
  | _ left ih =>
    have hnext (block : ℕ) :
        start + (block + 1) * testSize = start + testSize + block * testSize := by
      rw [Nat.succ_mul]
      omega
    rw [splitsFrom]
    by_cases hstart : start < decisions.length
    · rw [if_pos ⟨hstart, hsize⟩, List.mem_append,
        ih (decisions.length - (start + testSize)) (by omega) rfl]
      constructor
      · rintro (hfirst | ⟨block, hblock⟩)
        · split at hfirst
          · rename_i henough
            exact ⟨0, by simpa using hstart, by simpa using henough, by simpa using hfirst⟩
          · cases hfirst
        · exact ⟨block + 1, by rwa [hnext]⟩
      · rintro ⟨block, hblock, henough, rfl⟩
        cases block with
        | zero =>
          simp only [Nat.zero_mul, Nat.add_zero] at henough ⊢
          exact .inl (by simp [henough])
        | succ block =>
          rw [hnext] at hblock henough ⊢
          exact .inr ⟨block, hblock, henough, rfl⟩
    · rw [if_neg (by simp [hstart])]
      simp only [List.not_mem_nil, false_iff, not_exists, not_and]
      intro block hblock
      exact absurd (Nat.le_add_right start _ |>.trans_lt hblock) hstart

/-- The tests of a split come before those of the splits after it. -/
theorem pairwise_splitsFrom (hsize : 0 < testSize) (start : ℕ) :
    (splitsFrom decisions labelEnds minimumTrainSize testSize embargo start).Pairwise
      fun earlier later ↦ ∀ first ∈ earlier.test, ∀ second ∈ later.test, first < second := by
  induction hleft : decisions.length - start using Nat.strong_induction_on generalizing start with
  | _ left ih =>
    rw [splitsFrom]
    by_cases hstart : start < decisions.length
    · rw [if_pos ⟨hstart, hsize⟩, List.pairwise_append]
      refine ⟨by split <;> simp, ih _ (by omega) _ rfl, ?_⟩
      intro earlier hearlier later hlater first hfirst second hsecond
      obtain ⟨block, -, -, rfl⟩ := (mem_splitsFrom hsize).1 hlater
      split at hearlier
      · rw [List.mem_singleton.1 hearlier] at hfirst
        have hend := (mem_testIndices.1 hfirst).2.1
        have hbegin := (mem_testIndices.1 hsecond).1
        omega
      · cases hearlier
    · rw [if_neg (by simp [hstart])]
      exact List.Pairwise.nil

end Blocks

theorem purgedWalkForwardSplits_eq_ok {decisions labelEnds : List ℤ}
    {minimumTrainSize testSize embargo : ℤ} {splits : List Split}
    (hsplits : purgedWalkForwardSplits decisions labelEnds minimumTrainSize testSize embargo =
      .ok splits) :
    0 < minimumTrainSize ∧ 0 < testSize ∧ 0 ≤ embargo ∧ decisions.Pairwise (· ≤ ·) ∧
      splits = splitsFrom decisions labelEnds minimumTrainSize.toNat testSize.toNat embargo
        minimumTrainSize.toNat := by
  unfold purgedWalkForwardSplits at hsplits
  split_ifs at hsplits with halign hsizes hsorted
  · cases hsplits
    refine ⟨by omega, by omega, by omega, ?_, rfl⟩
    rw [not_not.1 hsorted]
    exact List.sortedLE_mergeSort.pairwise

end Bongus.Research.WalkForward
