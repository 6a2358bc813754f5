import Bongus.Lib.NumberTexts
import Bongus.Num.DecimalOperations

/-!
# Reading and writing checked decimals

What `execution_engine/src/exact_decimal.rs` reads from a text is the number that the text denotes
(`denotes_of_fromStr`), with a sign, digits on either side of a point and an exponent, whatever
blanks surround it. The text of a decimal at a scale denotes the same number and has exactly the
digits of the scale after its point (`denotes_of_formatToScale`).
-/

set_option autoImplicit false
set_option relaxedAutoImplicit false

namespace Bongus.Num.ExactDecimal

open Lib.Text Lib.Numerals Lib.Fallible Lib.NumberTexts

/-! ### Reading -/

theorem digitsValue_eq_number (digits : List Char) : digitsValue digits = number digits := rfl

/-- The integer of a sign and digits. -/
def signedInteger (width : ℕ) (negative : Bool) (digits : List Char) : Option ℤ :=
  if digits = [] ∨ ¬ digits.all Char.isDigit then none
  else
    let value : ℤ := if negative then -digitsValue digits else digitsValue digits
    if fits width value then some value else none

theorem signedInteger_eq_some {width : ℕ} {negative : Bool} {digits : List Char} {value : ℤ}
    (hread : signedInteger width negative digits = some value) :
    Digits digits ∧ digits ≠ [] ∧ value = (if negative then -1 else 1) * (number digits : ℤ) := by
  rw [signedInteger] at hread
  split at hread
  · cases hread
  rename_i hdigits
  obtain ⟨hne, hall⟩ := not_or.mp hdigits
  rw [not_not, List.all_eq_true] at hall
  rw [Option.ite_none_right_eq_some] at hread
  refine ⟨hall, hne, ?_⟩
  rw [← Option.some.inj hread.2, digitsValue_eq_number]
  cases negative <;> simp

theorem parseInteger_cons (width : ℕ) (c : Char) (rest : List Char) :
    parseInteger width (c :: rest) =
      if c = '-' then signedInteger width true rest
      else if c = '+' then signedInteger width false rest
      else signedInteger width false (c :: rest) := by
  by_cases hminus : c = '-'
  · subst hminus
    rfl
  by_cases hplus : c = '+'
  · subst hplus
    rfl
  rw [if_neg hminus, if_neg hplus]
  simp [parseInteger, signedInteger, hminus, hplus]

/-- An integer is read from an optional sign and digits. -/
theorem parseInteger_eq_some {width : ℕ} {text : List Char} {value : ℤ}
    (hread : parseInteger width text = some value) :
    ∃ sign digits factor, text = sign ++ digits ∧ Sign sign factor ∧ Digits digits ∧
      digits ≠ [] ∧ value = factor * number digits := by
  cases text with
  | nil => cases hread
  | cons c rest =>
    rw [parseInteger_cons] at hread
    split at hread
    · rename_i hminus
      obtain ⟨hdigits, hne, hvalue⟩ := signedInteger_eq_some hread
      exact ⟨['-'], rest, -1, by rw [hminus]; rfl, .minus, hdigits, hne, hvalue⟩
    split at hread
    · rename_i hplus
      obtain ⟨hdigits, hne, hvalue⟩ := signedInteger_eq_some hread
      exact ⟨['+'], rest, 1, by rw [hplus]; rfl, .plus, hdigits, hne, hvalue⟩
    · obtain ⟨hdigits, hne, hvalue⟩ := signedInteger_eq_some hread
      exact ⟨[], c :: rest, 1, rfl, .none, hdigits, hne, hvalue⟩

theorem splitExponent_eq_ok {raw mantissa : List Char} {exponent : ℤ}
    (hsplit : splitExponent raw = .ok (mantissa, exponent)) :
    ∃ exponentText, raw = mantissa ++ exponentText ∧ Exponent exponentText exponent := by
  rw [splitExponent, List.span_eq_takeWhile_dropWhile] at hsplit
  have hraw := List.takeWhile_append_dropWhile
    (p := fun c ↦ decide (c ≠ 'e') && decide (c ≠ 'E')) (l := raw)
  split at hsplit
  · rename_i first hpair
    cases hsplit
    rw [Prod.mk.injEq] at hpair
    rw [hpair.1, hpair.2] at hraw
    exact ⟨[], hraw.symm, .none⟩
  · rename_i first c rest hpair
    rw [Prod.mk.injEq] at hpair
    split at hsplit
    · cases hsplit
    rename_i value hvalue
    cases hsplit
    obtain ⟨sign, digits, factor, rfl, hsign, hdigits, hne, rfl⟩ := parseInteger_eq_some hvalue
    rw [hpair.1, hpair.2] at hraw
    have hmark : c = 'e' ∨ c = 'E' := by
      have hhead : (raw.dropWhile fun c ↦ decide (c ≠ 'e') && decide (c ≠ 'E')).head? = some c := by
        rw [hpair.2]
        rfl
      have hstop := List.head?_dropWhile_not (fun c ↦ decide (c ≠ 'e') && decide (c ≠ 'E')) raw
      rw [hhead] at hstop
      by_contra hother
      simp_all
    exact ⟨_, hraw.symm, .mark hmark hsign hdigits hne⟩

/-- After a point only digits are scanned, and each of them is counted. -/
theorem scan_after_dot {text : List Char} {state found : Scan} (hdot : state.sawDot = true)
    (hscan : scan text state = .ok found) :
    Digits text ∧ found.digits = state.digits ++ text ∧
      found.fractionalDigits = state.fractionalDigits + text.length ∧
      found.sawDigit = (state.sawDigit || !text.isEmpty) := by
  induction text generalizing state with
  | nil =>
    cases hscan
    refine ⟨?_, (List.append_nil _).symm, rfl, (Bool.or_false _).symm⟩
    intro c hc
    cases hc
  | cons c rest ih =>
    rw [scan] at hscan
    split at hscan
    · rename_i hc
      dsimp only at hscan
      split at hscan
      · cases hscan
      · obtain ⟨hdigits, hkept, hcount, hsaw⟩ := ih (by exact hdot) hscan
        refine ⟨?_, ?_, ?_, ?_⟩
        · intro digit hdigit
          rcases List.mem_cons.mp hdigit with rfl | hmore
          · exact hc
          · exact hdigits digit hmore
        · simp [hkept]
        · rw [hcount, hdot, List.length_cons]
          exact Nat.add_right_comm _ _ _
        · simp [hsaw]
    · split at hscan
      · rename_i hpoint
        exact absurd hdot hpoint.2
      · cases hscan

/-- Before a point the scan keeps the digits, and a point may follow them. -/
theorem scan_before_dot {text : List Char} {state found : Scan} (hdot : state.sawDot = false)
    (hscan : scan text state = .ok found) :
    ∃ integer fractionText fraction, text = integer ++ fractionText ∧ Digits integer ∧
      Fraction fractionText fraction ∧ found.digits = state.digits ++ (integer ++ fraction) ∧
      found.fractionalDigits = state.fractionalDigits + fraction.length ∧
      found.sawDigit = (state.sawDigit || !(integer ++ fraction).isEmpty) := by
  induction text generalizing state with
  | nil =>
    cases hscan
    refine ⟨[], [], [], rfl, ?_, .none, (List.append_nil _).symm, rfl, (Bool.or_false _).symm⟩
    intro c hc
    cases hc
  | cons c rest ih =>
    rw [scan] at hscan
    split at hscan
    · rename_i hc
      dsimp only at hscan
      rw [hdot] at hscan
      split at hscan
      · cases hscan
      · obtain ⟨integer, fractionText, fraction, rfl, hinteger, hfraction, hkept, hcount, hsaw⟩ :=
          ih rfl hscan
        refine ⟨c :: integer, fractionText, fraction, rfl, ?_, hfraction, ?_, hcount, ?_⟩
        · intro digit hdigit
          rcases List.mem_cons.mp hdigit with rfl | hmore
          · exact hc
          · exact hinteger digit hmore
        · simp [hkept]
        · simp [hsaw]
    · split at hscan
      · rename_i hpoint
        obtain ⟨hdigits, hkept, hcount, hsaw⟩ := scan_after_dot rfl hscan
        refine ⟨[], c :: rest, rest, rfl, ?_, ?_, hkept, hcount, hsaw⟩
        · intro digit hdigit
          cases hdigit
        · rw [hpoint.1]
          exact .point hdigits
      · cases hscan

/-- Units at a scale denote what they should, also where the scale is negative. -/
theorem value_scaled {units targetScale : ℤ} {d : ExactDecimal}
    (hscaled : scaled units targetScale = .ok d) : d.value = units * 10 ^ (-targetScale) := by
  rw [scaled] at hscaled
  split at hscaled
  · rename_i hneg
    split at hscaled
    · cases hscaled
    rename_i factor hfactor
    split at hscaled
    · cases hscaled
    rename_i product hproduct
    cases hscaled
    rw [value_normalized, (checkedMul_eq_some hproduct).1, pow10_eq_some hfactor]
    have hpower : (10 : ℚ) ^ (-targetScale) = 10 ^ (-targetScale).toNat := by
      rw [← zpow_natCast, Int.toNat_of_nonneg (by omega)]
    rw [hpower]
    push_cast
    ring
  split at hscaled
  · cases hscaled
  split at hscaled
  · cases hscaled
  · rename_i hnonneg _ _
    cases hscaled
    have hpower : (10 : ℚ) ^ targetScale = 10 ^ targetScale.toNat := by
      rw [← zpow_natCast, Int.toNat_of_nonneg (not_lt.mp hnonneg)]
    rw [value_normalized, zpow_neg, hpower, div_eq_mul_inv]

theorem number_of_parseInteger {width : ℕ} {digits : List Char} {units : ℤ}
    (hdigits : Digits digits) (hread : parseInteger width digits = some units) :
    units = number digits := by
  obtain ⟨sign, kept, factor, rfl, hsign, -, -, rfl⟩ := parseInteger_eq_some hread
  cases hsign with
  | none => rw [List.nil_append, one_mul]
  | plus => exact absurd (hdigits '+' List.mem_cons_self) (by decide)
  | minus => exact absurd (hdigits '-' List.mem_cons_self) (by decide)

/-- The decimal of a sign, a scanned mantissa and an exponent. -/
theorem denotes_of_scan {sign unsigned exponentText : List Char} {factor exponent units : ℤ}
    {state : Scan} {d : ExactDecimal} (hsign : Sign sign factor)
    (hscan : scan unsigned {} = .ok state) (hsome : state.sawDigit = true)
    (hunits : parseInteger 128 state.digits = some units)
    (hexponent : Exponent exponentText exponent)
    (hscaled : scaled (factor * units) ((state.fractionalDigits : ℤ) - exponent) = .ok d) :
    Denotes (sign ++ (unsigned ++ exponentText)) state.fractionalDigits d.value := by
  obtain ⟨integer, fractionText, fraction, rfl, hinteger, hfraction, hkept, hcount, hsaw⟩ :=
    scan_before_dot rfl hscan
  have hdigits : Digits state.digits := digits_of_scan hscan fun c hc ↦ by cases hc
  have hcount' : state.fractionalDigits = fraction.length := by
    rw [hcount]
    exact Nat.zero_add _
  have hne : integer ++ fraction ≠ [] := by
    rw [hsome] at hsaw
    intro hnil
    rw [hnil] at hsaw
    cases hsaw
  rw [value_scaled hscaled, number_of_parseInteger hdigits hunits, hkept, List.nil_append, hcount',
    neg_sub, List.append_assoc, Int.cast_mul, Int.cast_natCast]
  exact .mk hsign hinteger hfraction hne hexponent

/-- What is read from a text is the number that the text denotes. -/
theorem denotes_of_fromStr {raw : String} {d : ExactDecimal} (hread : fromStr raw = .ok d) :
    ∃ places, Denotes (trim unicodeBlank raw).toList places d.value := by
  simp only [fromStr, throw_bind, check_eq_ok, bind_eq_ok, Prod.exists] at hread
  obtain ⟨-, mantissa, exponent, hsplit, -, state, hscan, hsome, hscaled⟩ := hread
  obtain ⟨exponentText, htext, hexponent⟩ := splitExponent_eq_ok hsplit
  rw [not_not] at hsome
  split at hscaled
  · cases hscaled
  rename_i units hunits
  rw [htext]
  cases mantissa with
  | nil =>
    refine ⟨_, denotes_of_scan .none hscan hsome hunits hexponent ?_⟩
    rwa [one_mul]
  | cons c rest =>
    by_cases hminus : c = '-'
    · subst hminus
      refine ⟨_, denotes_of_scan .minus hscan hsome hunits hexponent ?_⟩
      rwa [neg_one_mul]
    by_cases hplus : c = '+'
    · subst hplus
      refine ⟨_, denotes_of_scan .plus hscan hsome hunits hexponent ?_⟩
      rwa [one_mul]
    · simp [hminus, hplus] at hscan hscaled
      refine ⟨_, denotes_of_scan .none hscan hsome hunits hexponent ?_⟩
      rwa [one_mul]

/-! ### Writing -/

/-- Digits with a point after the first of them denote the number of all of them. -/
theorem denotes_point {sign integer fraction : List Char} {factor : ℤ} (hsign : Sign sign factor)
    (hinteger : Digits integer) (hfraction : Digits fraction) (hne : integer ++ fraction ≠ []) :
    Denotes (sign ++ (integer ++ '.' :: fraction)) fraction.length
      (factor * number (integer ++ fraction) / 10 ^ fraction.length) := by
  have hdenotes := Denotes.mk hsign hinteger (.point hfraction) hne .none
  rwa [List.append_nil, zero_sub, zpow_neg, zpow_natCast, ← div_eq_mul_inv] at hdenotes

theorem number_zeros (count : ℕ) (digits : List Char) :
    number (List.replicate count '0' ++ digits) = number digits := by
  have hzeros : number (List.replicate count '0') = 0 := Nat.ofDigitChars_replicate_zero
  rw [number_append, hzeros, Nat.zero_mul, Nat.zero_add]

/-- The text of digits with a point before the last places. -/
theorem denotes_plainChars {sign digits : List Char} {factor : ℤ} (hsign : Sign sign factor)
    (hdigits : Digits digits) (hne : digits ≠ []) (places : ℕ) :
    Denotes (sign ++ plainChars digits places) places (factor * number digits / 10 ^ places) := by
  rw [plainChars]
  split
  · rename_i hnone
    have hdenotes := Denotes.mk hsign hdigits .none (by rwa [List.append_nil]) .none
    rw [List.append_nil, List.append_nil, List.length_nil, Nat.cast_zero, sub_zero, zpow_zero,
      mul_one] at hdenotes
    rwa [hnone, pow_zero, div_one]
  split
  · rename_i hnone hinside
    have hlength : (digits.drop (digits.length - places)).length = places := by
      rw [List.length_drop]
      omega
    have hdenotes := denotes_point hsign
      (fun c hc ↦ hdigits c (List.mem_of_mem_take (i := digits.length - places) hc))
      (fun c hc ↦ hdigits c (List.mem_of_mem_drop (i := digits.length - places) hc))
      (by rwa [List.take_append_drop])
    rwa [List.take_append_drop, hlength] at hdenotes
  · rename_i hnone hinside
    have hlength : (List.replicate (places - digits.length) '0' ++ digits).length = places := by
      rw [List.length_append, List.length_replicate]
      omega
    have hfraction : Digits (List.replicate (places - digits.length) '0' ++ digits) := by
      intro c hc
      rcases List.mem_append.mp hc with hzero | hdigit
      · exact digits_replicate _ c hzero
      · exact hdigits c hdigit
    have hdenotes := denotes_point hsign (digits_replicate 1) hfraction (List.cons_ne_nil _ _)
    rwa [number_zeros, number_zeros, hlength] at hdenotes

theorem denotes_renderUnits (units : ℤ) (scale : ℕ) :
    Denotes (renderUnits units scale).toList scale (units / 10 ^ scale) := by
  have hdigits : Digits (toString units.natAbs).toList :=
    (⟨units, scale⟩ : ExactDecimal).digits_absoluteSignificand
  have habsolute : (toString units.natAbs).toList = Nat.toDigits 10 units.natAbs :=
    (⟨units, scale⟩ : ExactDecimal).absoluteSignificand_eq
  have hne : (toString units.natAbs).toList ≠ [] := by
    rw [habsolute]
    exact Nat.toDigits_ne_nil
  have hnumber : number (toString units.natAbs).toList = units.natAbs := by
    rw [habsolute]
    exact Nat.ofDigitChars_ten_toDigits
  rw [toList_renderUnits]
  split
  · rename_i hneg
    have hdenotes := denotes_plainChars .minus hdigits hne scale
    have hsigned : (-1) * (units.natAbs : ℤ) = units := by omega
    have hunits : ((-1 : ℤ) : ℚ) * (units.natAbs : ℕ) = units := by
      rw [← Int.cast_natCast, ← Int.cast_mul, hsigned]
    rwa [hnumber, hunits] at hdenotes
  · rename_i hneg
    have hdenotes := denotes_plainChars .none hdigits hne scale
    have hsigned : 1 * (units.natAbs : ℤ) = units := by omega
    have hunits : ((1 : ℤ) : ℚ) * (units.natAbs : ℕ) = units := by
      rw [← Int.cast_natCast, ← Int.cast_mul, hsigned]
    rwa [hnumber, hunits] at hdenotes

/-- A decimal that is written at a scale has that many digits after its point. -/
theorem denotes_of_formatToScale {d : ExactDecimal} {scale : ℕ} {text : String}
    (hformat : d.formatToScale scale = some text) : Denotes text.toList scale d.value := by
  rw [formatToScale] at hformat
  split at hformat
  · cases hformat
  rename_i hscale
  simp only [Option.bind_eq_bind, Option.bind_eq_some_iff, Option.pure_def, Option.some.injEq]
    at hformat
  obtain ⟨factor, hfactor, units, hunits, rfl⟩ := hformat
  have hvalue : d.value = units / 10 ^ scale := by
    rw [value_eq_unitsAt (not_lt.mp hscale), unitsAt, (checkedMul_eq_some hunits).1,
      pow10_eq_some hfactor]
  rw [hvalue]
  exact denotes_renderUnits units scale

/-- A text that is read denotes the number of its decimal, the decimal is found again in its own
text, and at every scale that it is written at, its text denotes the same number. -/
theorem text_exact {raw : String} {d : ExactDecimal} (hread : fromStr raw = .ok d) :
    (∀ places number, Denotes (trim unicodeBlank raw).toList places number → d.value = number) ∧
      (∃ places, Denotes (trim unicodeBlank raw).toList places d.value) ∧
      fromStr d.display = .ok d ∧
      ∀ scale text, d.formatToScale scale = some text → Denotes text.toList scale d.value := by
  obtain ⟨places, hdenotes⟩ := denotes_of_fromStr hread
  exact ⟨fun _ _ hother ↦ (hdenotes.unique hother).2, ⟨places, hdenotes⟩,
    fromStr_display (canonical_of_fromStr hread),
    fun _ _ hformat ↦ denotes_of_formatToScale hformat⟩

theorem text_exact_exponent :
    fromStr " -1.25E+1\n" = .ok ⟨-125, 1⟩ ∧
      (⟨-125, 1⟩ : ExactDecimal).formatToScale 3 = some "-12.500" ∧
      Denotes "-12.500".toList 3 (⟨-125, 1⟩ : ExactDecimal).value := by
  have hread : fromStr " -1.25E+1\n" = .ok ⟨-125, 1⟩ := by decide +kernel
  have hformat : (⟨-125, 1⟩ : ExactDecimal).formatToScale 3 = some "-12.500" := by decide +kernel
  exact ⟨hread, hformat, (text_exact hread).2.2.2 3 "-12.500" hformat⟩

end Bongus.Num.ExactDecimal
