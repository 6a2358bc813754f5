import Mathlib.Algebra.Order.Field.Rat
import Mathlib.Data.Char
import Mathlib.Order.Compare
import Mathlib.Tactic.Linarith
import Mathlib.Tactic.Ring

/-!
# Decimal numerals

A list of digits denotes a number, and a shorter list can be read as if zeros followed it. A
comparison of digits from the left, the shorter list continued with zeros, is the comparison of the
numbers they denote at a common width (`compare_placed`).
-/

set_option autoImplicit false
set_option relaxedAutoImplicit false

namespace Bongus.Lib.Numerals

/-! ### Comparisons -/

/-- Two comparisons agree if the strict orders do. -/
theorem compare_congr {α β : Type*} [LinearOrder α] [LinearOrder β] {a b : α} {x y : β}
    (hless : a < b ↔ x < y) (hmore : b < a ↔ y < x) : compare a b = compare x y := by
  rcases lt_trichotomy a b with hab | hab | hab
  · rw [compare_lt_iff_lt.mpr hab, compare_lt_iff_lt.mpr (hless.mp hab)]
  · have hxy : x = y := le_antisymm (not_lt.mp fun hyx ↦ (hmore.mpr hyx).ne' hab)
      (not_lt.mp fun hxy ↦ (hless.mpr hxy).ne hab)
    rw [compare_eq_iff_eq.mpr hab, compare_eq_iff_eq.mpr hxy]
  · rw [compare_gt_iff_gt.mpr hab, compare_gt_iff_gt.mpr (hmore.mp hab)]

/-- Numbers of two places compare by the first place and then by the second. -/
theorem compare_place {base high low otherHigh otherLow : ℕ} (hlow : low < base)
    (hotherLow : otherLow < base) :
    compare (high * base + low) (otherHigh * base + otherLow) =
      (compare high otherHigh).then (compare low otherLow) := by
  rcases lt_trichotomy high otherHigh with hless | rfl | hmore
  · have hplace : (high + 1) * base ≤ otherHigh * base := Nat.mul_le_mul_right base hless
    rw [compare_lt_iff_lt.mpr hless, Ordering.lt_then, compare_lt_iff_lt]
    linarith
  · rw [compare_eq_iff_eq.mpr (rfl : high = high), Ordering.eq_then]
    exact compare_congr (Nat.add_lt_add_iff_left) (Nat.add_lt_add_iff_left)
  · have hplace : (otherHigh + 1) * base ≤ high * base := Nat.mul_le_mul_right base hmore
    rw [compare_gt_iff_gt.mpr hmore, Ordering.gt_then, compare_gt_iff_gt]
    linarith

/-! ### Digits -/

def Digits (digits : List Char) : Prop := ∀ c ∈ digits, c.isDigit = true

/-- The number that digits denote at a width, zeros filling it from the right. -/
def placed (width : ℕ) (digits : List Char) : ℕ :=
  Nat.ofDigitChars 10 digits 0 * 10 ^ (width - digits.length)

theorem digit_lt {c : Char} (hdigit : c.isDigit = true) :
    '0'.toNat ≤ c.toNat ∧ c.toNat - '0'.toNat < 10 := by
  rw [Char.isDigit, Bool.and_eq_true, decide_eq_true_eq, decide_eq_true_eq] at hdigit
  have hzero : '0'.toNat ≤ c.toNat := hdigit.1
  have hnine : c.toNat ≤ '9'.toNat := hdigit.2
  have hz : '0'.toNat = 48 := rfl
  have hn : '9'.toNat = 57 := rfl
  omega

theorem headD_isDigit {digits : List Char} (hdigits : Digits digits) :
    (digits.headD '0').isDigit = true := by
  cases digits with
  | nil => rfl
  | cons c rest => exact hdigits c List.mem_cons_self

theorem Digits.tail {digits : List Char} (hdigits : Digits digits) : Digits digits.tail :=
  fun c hc ↦ hdigits c (List.mem_of_mem_tail hc)

/-- The first digit has its own place before the others. -/
theorem placed_succ {width : ℕ} {digits : List Char} (hlength : digits.length ≤ width + 1) :
    placed (width + 1) digits =
      ((digits.headD '0').toNat - '0'.toNat) * 10 ^ width + placed width digits.tail := by
  cases digits with
  | nil => simp [placed, Nat.ofDigitChars_nil]
  | cons c rest =>
    have hrest : rest.length ≤ width := Nat.le_of_succ_le_succ hlength
    have hpow : 10 ^ rest.length * 10 ^ (width - rest.length) = 10 ^ width := by
      rw [← pow_add, Nat.add_sub_cancel' hrest]
    rw [placed, placed, Nat.ofDigitChars_cons, Nat.ofDigitChars_eq_ofDigitChars_zero,
      List.length_cons, Nat.add_sub_add_right, List.headD_cons, List.tail_cons, Nat.mul_zero,
      Nat.zero_add, add_mul, ← hpow]
    ring

theorem placed_lt {width : ℕ} {digits : List Char} (hdigits : Digits digits)
    (hlength : digits.length ≤ width) : placed width digits < 10 ^ width := by
  induction width generalizing digits with
  | zero =>
    rw [List.eq_nil_of_length_eq_zero (Nat.le_zero.mp hlength)]
    decide
  | succ width ih =>
    have htail : digits.tail.length ≤ width := by
      rw [List.length_tail]
      omega
    have hdigit := (digit_lt (headD_isDigit hdigits)).2
    have hrest := ih hdigits.tail htail
    rw [placed_succ hlength, pow_succ]
    nlinarith

theorem compare_digit {a b : Char} (ha : a.isDigit = true) (hb : b.isDigit = true) :
    compare a b = compare (a.toNat - '0'.toNat) (b.toNat - '0'.toNat) := by
  have ha' := (digit_lt ha).1
  have hb' := (digit_lt hb).1
  have hless : ∀ c d : Char, c < d ↔ c.toNat < d.toNat := fun c d ↦ Iff.rfl
  refine compare_congr ?_ ?_
  · rw [hless a b]
    omega
  · rw [hless b a]
    omega

/-- A comparison that goes digit by digit compares the numbers. -/
theorem compare_placed {order : List Char → List Char → Ordering} (hnil : order [] [] = .eq)
    (hstep : ∀ left right, order left right =
      (compare (left.headD '0') (right.headD '0')).then (order left.tail right.tail))
    {width : ℕ} {left right : List Char} (hleft : Digits left) (hright : Digits right)
    (hleftLength : left.length ≤ width) (hrightLength : right.length ≤ width) :
    order left right = compare (placed width left) (placed width right) := by
  induction width generalizing left right with
  | zero =>
    rw [List.eq_nil_of_length_eq_zero (Nat.le_zero.mp hleftLength),
      List.eq_nil_of_length_eq_zero (Nat.le_zero.mp hrightLength), hnil]
    exact (compare_eq_iff_eq.mpr rfl).symm
  | succ width ih =>
    have hleftTail : left.tail.length ≤ width := by
      rw [List.length_tail]
      omega
    have hrightTail : right.tail.length ≤ width := by
      rw [List.length_tail]
      omega
    rw [hstep, ih hleft.tail hright.tail hleftTail hrightTail,
      compare_digit (headD_isDigit hleft) (headD_isDigit hright), placed_succ hleftLength,
      placed_succ hrightLength,
      compare_place (placed_lt hleft.tail hleftTail) (placed_lt hright.tail hrightTail)]

end Bongus.Lib.Numerals
