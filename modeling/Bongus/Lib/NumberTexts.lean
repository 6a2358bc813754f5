import Bongus.Lib.Numerals
import Mathlib.Algebra.Order.Field.Basic
import Mathlib.Algebra.Order.Field.Power

/-!
# The numbers that texts denote

A decimal text is an optional sign, digits with an optional point among them, and an optional
exponent. `Denotes` relates a text to its number and to the count of the digits after its point, in
the way of the written numbers and of no particular reader; a text denotes one number at most
(`Denotes.unique`).

A number in normal form is given by its digits, the first of which is not zero, and by the place of
the point (`positioned`). Two of them compare by the places first and by the digits from the left
then (`compare_positioned`).
-/

set_option autoImplicit false
set_option relaxedAutoImplicit false

namespace Bongus.Lib.NumberTexts

open Numerals

/-! ### Texts -/

/-- The number that digits denote. -/
def number (digits : List Char) : ℕ := Nat.ofDigitChars 10 digits 0

/-- An optional sign and its factor. -/
inductive Sign : List Char → ℤ → Prop
  | none : Sign [] 1
  | plus : Sign ['+'] 1
  | minus : Sign ['-'] (-1)

/-- A point with digits after it, or nothing. -/
inductive Fraction : List Char → List Char → Prop
  | none : Fraction [] []
  | point {digits : List Char} (hdigits : Digits digits) : Fraction ('.' :: digits) digits

/-- An exponent mark with a signed number after it, or nothing. -/
inductive Exponent : List Char → ℤ → Prop
  | none : Exponent [] 0
  | mark {c : Char} {sign digits : List Char} {factor : ℤ} (hmark : c = 'e' ∨ c = 'E')
      (hsign : Sign sign factor) (hdigits : Digits digits) (hne : digits ≠ []) :
      Exponent (c :: (sign ++ digits)) (factor * number digits)

/-- A text, the count of digits after its point, and the number it denotes. -/
inductive Denotes : List Char → ℕ → ℚ → Prop
  | mk {sign integer fractionText fraction exponentText : List Char} {factor exponent : ℤ}
      (hsign : Sign sign factor) (hinteger : Digits integer)
      (hfraction : Fraction fractionText fraction) (hsome : integer ++ fraction ≠ [])
      (hexponent : Exponent exponentText exponent) :
      Denotes (sign ++ (integer ++ (fractionText ++ exponentText))) fraction.length
        (factor * number (integer ++ fraction) * 10 ^ (exponent - fraction.length))

/-! ### A text denotes one number -/

/-- A text is split in one way where a kind of character ends. -/
theorem append_unique {kind : Char → Bool} {first rest other rest' : List Char}
    (hfirst : ∀ c ∈ first, kind c = true) (hother : ∀ c ∈ other, kind c = true)
    (hrest : ∀ c, rest.head? = some c → kind c = false)
    (hrest' : ∀ c, rest'.head? = some c → kind c = false)
    (heq : first ++ rest = other ++ rest') : first = other ∧ rest = rest' := by
  induction first generalizing other with
  | nil =>
    cases other with
    | nil => exact ⟨rfl, heq⟩
    | cons c other =>
      have hhead : rest.head? = some c := by
        rw [List.nil_append] at heq
        rw [heq]
        rfl
      have hkind := hother c List.mem_cons_self
      rw [hrest c hhead] at hkind
      cases hkind
  | cons c first ih =>
    cases other with
    | nil =>
      have hhead : rest'.head? = some c := by
        rw [List.nil_append] at heq
        rw [← heq]
        rfl
      have hkind := hfirst c List.mem_cons_self
      rw [hrest' c hhead] at hkind
      cases hkind
    | cons c' other =>
      rw [List.cons_append, List.cons_append, List.cons.injEq] at heq
      obtain ⟨hsame, hrests⟩ := ih (fun c hc ↦ hfirst c (List.mem_cons_of_mem _ hc))
        (fun c hc ↦ hother c (List.mem_cons_of_mem _ hc)) heq.2
      exact ⟨by rw [heq.1, hsame], hrests⟩

def isSign (c : Char) : Bool := c = '+' || c = '-'

theorem Sign.isSign {sign : List Char} {factor : ℤ} (hsign : Sign sign factor) :
    ∀ c ∈ sign, NumberTexts.isSign c = true := by
  intro c hc
  cases hsign with
  | none => cases hc
  | plus =>
    rw [List.mem_singleton.mp hc]
    rfl
  | minus =>
    rw [List.mem_singleton.mp hc]
    rfl

theorem Sign.unique {sign : List Char} {factor other : ℤ} (hsign : Sign sign factor)
    (hother : Sign sign other) : factor = other := by
  cases hsign <;> cases hother <;> rfl

theorem isSign_of_isDigit {c : Char} (hdigit : c.isDigit = true) : isSign c = false := by
  rw [isSign, Bool.or_eq_false_iff, decide_eq_false_iff_not, decide_eq_false_iff_not]
  constructor
  · rintro rfl
    exact absurd hdigit (by decide)
  · rintro rfl
    exact absurd hdigit (by decide)

theorem head_of_digits {digits : List Char} (hdigits : Digits digits) {c : Char}
    (hc : digits.head? = some c) : c.isDigit = true := hdigits c (List.mem_of_mem_head? hc)

/-- An exponent starts with its mark. -/
theorem Exponent.head {text : List Char} {exponent : ℤ} (hexponent : Exponent text exponent)
    {c : Char} (hc : text.head? = some c) : c = 'e' ∨ c = 'E' := by
  cases hexponent with
  | none => cases hc
  | mark hmark _ _ _ =>
    cases hc
    exact hmark

theorem Exponent.head_not_digit {text : List Char} {exponent : ℤ}
    (hexponent : Exponent text exponent) (c : Char) (hc : text.head? = some c) :
    c.isDigit = false := by
  rcases hexponent.head hc with rfl | rfl <;> rfl

theorem Exponent.unique {text : List Char} {exponent other : ℤ} (hexponent : Exponent text exponent)
    (hother : Exponent text other) : exponent = other := by
  generalize hsame : text = text' at hother
  cases hexponent with
  | none =>
    cases hother with
    | none => rfl
    | mark _ _ _ _ => cases hsame
  | mark _ hsign hdigits hne =>
    cases hother with
    | none => cases hsame
    | mark _ hsign' hdigits' hne' =>
      rw [List.cons.injEq] at hsame
      obtain ⟨rfl, rfl⟩ := append_unique hsign.isSign hsign'.isSign
        (fun c hc ↦ isSign_of_isDigit (head_of_digits hdigits hc))
        (fun c hc ↦ isSign_of_isDigit (head_of_digits hdigits' hc)) hsame.2
      rw [hsign.unique hsign']

/-- After the integer digits comes a point, an exponent mark or the end. -/
theorem Fraction.head {text digits exponentText : List Char} {exponent : ℤ}
    (hfraction : Fraction text digits) (hexponent : Exponent exponentText exponent) {c : Char}
    (hc : (text ++ exponentText).head? = some c) : c = '.' ∨ c = 'e' ∨ c = 'E' := by
  cases hfraction with
  | none => exact Or.inr (hexponent.head hc)
  | point _ =>
    cases hc
    exact Or.inl rfl

theorem Fraction.head_not_digit {text digits exponentText : List Char} {exponent : ℤ}
    (hfraction : Fraction text digits) (hexponent : Exponent exponentText exponent) (c : Char)
    (hc : (text ++ exponentText).head? = some c) : c.isDigit = false := by
  rcases hfraction.head hexponent hc with rfl | rfl | rfl <;> rfl

/-- After the sign comes no other sign. -/
theorem head_not_sign {integer text digits exponentText : List Char} {exponent : ℤ}
    (hinteger : Digits integer) (hfraction : Fraction text digits)
    (hexponent : Exponent exponentText exponent) (c : Char)
    (hc : (integer ++ (text ++ exponentText)).head? = some c) : isSign c = false := by
  cases integer with
  | nil => rcases hfraction.head hexponent hc with rfl | rfl | rfl <;> rfl
  | cons first more =>
    cases hc
    exact isSign_of_isDigit (hinteger c List.mem_cons_self)

/-- The digits after a point end where the exponent starts. -/
theorem Fraction.unique {text digits exponentText text' digits' exponentText' : List Char}
    {exponent exponent' : ℤ} (hfraction : Fraction text digits)
    (hexponent : Exponent exponentText exponent) (hfraction' : Fraction text' digits')
    (hexponent' : Exponent exponentText' exponent')
    (heq : text ++ exponentText = text' ++ exponentText') :
    digits = digits' ∧ exponentText = exponentText' := by
  cases hfraction with
  | none =>
    cases hfraction' with
    | none => exact ⟨rfl, heq⟩
    | point _ =>
      have hhead : exponentText.head? = some '.' := by
        rw [List.nil_append] at heq
        rw [heq]
        rfl
      exact absurd (hexponent.head hhead) (by decide)
  | point hdigits =>
    cases hfraction' with
    | none =>
      have hhead : exponentText'.head? = some '.' := by
        rw [List.nil_append] at heq
        rw [← heq]
        rfl
      exact absurd (hexponent'.head hhead) (by decide)
    | point hdigits' =>
      exact append_unique hdigits hdigits' hexponent.head_not_digit hexponent'.head_not_digit
        (List.cons.inj heq).2

/-- A text denotes one number at most. -/
theorem Denotes.unique {text : List Char} {places places' : ℕ} {x y : ℚ}
    (hx : Denotes text places x) (hy : Denotes text places' y) : places = places' ∧ x = y := by
  generalize hsame : text = text' at hy
  cases hx with
  | mk hsign hinteger hfraction _ hexponent =>
    cases hy with
    | mk hsign' hinteger' hfraction' _ hexponent' =>
      obtain ⟨rfl, hbody⟩ := append_unique hsign.isSign hsign'.isSign
        (head_not_sign hinteger hfraction hexponent)
        (head_not_sign hinteger' hfraction' hexponent') hsame
      obtain ⟨rfl, hrest⟩ := append_unique hinteger hinteger'
        (hfraction.head_not_digit hexponent) (hfraction'.head_not_digit hexponent') hbody
      obtain ⟨rfl, rfl⟩ := hfraction.unique hexponent hfraction' hexponent' hrest
      rw [hsign.unique hsign', hexponent.unique hexponent']
      exact ⟨rfl, rfl⟩

/-! ### Numbers by their digits and the place of their point -/

theorem number_append (digits rest : List Char) :
    number (digits ++ rest) = number digits * 10 ^ rest.length + number rest := by
  rw [number, number, number, Nat.ofDigitChars_append, Nat.ofDigitChars_eq_ofDigitChars_zero]
  ring

/-- Zeros before the digits change nothing. -/
theorem number_dropWhile_zeros (digits : List Char) :
    number (digits.dropWhile fun digit ↦ digit = '0') = number digits := by
  induction digits with
  | nil => rfl
  | cons c digits ih =>
    rw [List.dropWhile_cons]
    split
    · rename_i hzero
      rw [ih, of_decide_eq_true hzero, ← List.singleton_append, number_append]
      have hnone : number ['0'] = 0 := rfl
      rw [hnone, Nat.zero_mul, Nat.zero_add]
    · rfl

/-- The digits as a number below one, moved to the place of the point. -/
def positioned (digits : List Char) (position : ℤ) : ℚ :=
  number digits * 10 ^ (position - digits.length)

theorem positioned_eq (digits : List Char) (position : ℤ) :
    positioned digits position = number digits / 10 ^ digits.length * 10 ^ position := by
  rw [positioned, zpow_sub₀ (by norm_num), zpow_natCast]
  ring

theorem number_lt {digits : List Char} (hdigits : Digits digits) :
    number digits < 10 ^ digits.length := by
  have hplaced := placed_lt hdigits le_rfl
  rwa [placed, Nat.sub_self, pow_zero, Nat.mul_one] at hplaced

/-- A first digit that is not zero gives the number all its places. -/
theorem le_number {c : Char} {digits : List Char} (hdigits : Digits (c :: digits)) (hc : c ≠ '0') :
    10 ^ digits.length ≤ number (c :: digits) := by
  have hdigit := digit_lt (hdigits c List.mem_cons_self)
  have hpos : 1 ≤ c.toNat - '0'.toNat := by
    by_contra hless
    have hsame : c.toNat = '0'.toNat := by omega
    exact hc (Char.toNat_inj.mp hsame)
  have hone : number [c] = c.toNat - '0'.toNat := by
    rw [number, Nat.ofDigitChars_cons, Nat.ofDigitChars_nil, Nat.mul_zero, Nat.zero_add]
  rw [← List.singleton_append, number_append, hone]
  nlinarith [Nat.zero_le (number digits), Nat.one_le_pow digits.length 10 (by norm_num)]

/-- Digits the first of which is not zero. -/
def Leading (digits : List Char) : Prop :=
  Digits digits ∧ ∃ c rest, digits = c :: rest ∧ c ≠ '0'

theorem positioned_lt {digits : List Char} (hdigits : Digits digits) (position : ℤ) :
    positioned digits position < 10 ^ position := by
  have hnumber : (number digits : ℚ) < 10 ^ digits.length := by exact_mod_cast number_lt hdigits
  have hpos : (0 : ℚ) < 10 ^ position := by positivity
  rw [positioned_eq]
  exact mul_lt_of_lt_one_left hpos ((div_lt_one (by positivity)).mpr hnumber)

theorem le_positioned {digits : List Char} (hdigits : Leading digits) (position : ℤ) :
    10 ^ (position - 1) ≤ positioned digits position := by
  obtain ⟨hall, c, rest, rfl, hc⟩ := hdigits
  have hnumber : (10 : ℚ) ^ rest.length ≤ number (c :: rest) := by
    exact_mod_cast le_number hall hc
  have hexponent : position - 1 = (rest.length : ℤ) + (position - (c :: rest).length) := by
    rw [List.length_cons]
    push_cast
    ring
  rw [positioned, hexponent, zpow_add₀ (by norm_num), zpow_natCast]
  exact mul_le_mul_of_nonneg_right hnumber (by positivity)

theorem positioned_pos {digits : List Char} (hdigits : Leading digits) (position : ℤ) :
    0 < positioned digits position :=
  lt_of_lt_of_le (by positivity) (le_positioned hdigits position)

theorem positioned_lt_of_lt {small large : List Char} {position greater : ℤ}
    (hsmall : Digits small) (hlarge : Leading large) (hless : position < greater) :
    positioned small position < positioned large greater :=
  calc positioned small position
      < 10 ^ position := positioned_lt hsmall position
    _ ≤ 10 ^ (greater - 1) := zpow_le_zpow_right₀ (by norm_num) (Int.le_sub_one_of_lt hless)
    _ ≤ positioned large greater := le_positioned hlarge greater

theorem placed_eq_positioned {width : ℕ} {digits : List Char} (hlength : digits.length ≤ width) :
    (placed width digits : ℚ) = positioned digits width := by
  rw [placed, positioned, ← Nat.cast_sub hlength, zpow_natCast]
  push_cast
  rfl

theorem positioned_mul_zpow (digits : List Char) (position places : ℤ) :
    positioned digits (position + places) = positioned digits position * 10 ^ places := by
  rw [positioned_eq, positioned_eq, zpow_add₀ (by norm_num), mul_assoc]

/-- The places of the points compare first, and then the digits from the left. -/
theorem compare_positioned {order : List Char → List Char → Ordering} (hnil : order [] [] = .eq)
    (hstep : ∀ left right, order left right =
      (compare (left.headD '0') (right.headD '0')).then (order left.tail right.tail))
    {left right : List Char} (hleft : Leading left) (hright : Leading right)
    (leftPosition rightPosition : ℤ) :
    (compare leftPosition rightPosition).then (order left right) =
      compare (positioned left leftPosition) (positioned right rightPosition) := by
  rcases lt_trichotomy leftPosition rightPosition with hless | rfl | hmore
  · rw [compare_lt_iff_lt.mpr hless, Ordering.lt_then]
    exact (compare_lt_iff_lt.mpr (positioned_lt_of_lt hleft.1 hright hless)).symm
  · set width := Nat.max left.length right.length
    have hleftWidth : left.length ≤ width := Nat.le_max_left _ _
    have hrightWidth : right.length ≤ width := Nat.le_max_right _ _
    have hmoved : ∀ digits : List Char, positioned digits leftPosition =
        positioned digits width * 10 ^ (leftPosition - width) := by
      intro digits
      rw [← positioned_mul_zpow, add_sub_cancel]
    have hpos : (0 : ℚ) < 10 ^ (leftPosition - width) := by positivity
    rw [compare_eq_iff_eq.mpr (rfl : leftPosition = leftPosition), Ordering.eq_then,
      compare_placed hnil hstep hleft.1 hright.1 hleftWidth hrightWidth, hmoved left, hmoved right]
    refine compare_congr ?_ ?_
    · rw [mul_lt_mul_iff_left₀ hpos, ← placed_eq_positioned hleftWidth,
        ← placed_eq_positioned hrightWidth, Nat.cast_lt]
    · rw [mul_lt_mul_iff_left₀ hpos, ← placed_eq_positioned hleftWidth,
        ← placed_eq_positioned hrightWidth, Nat.cast_lt]
  · rw [compare_gt_iff_gt.mpr hmore, Ordering.gt_then]
    exact (compare_gt_iff_gt.mpr (positioned_lt_of_lt hright.1 hleft hmore)).symm

end Bongus.Lib.NumberTexts
