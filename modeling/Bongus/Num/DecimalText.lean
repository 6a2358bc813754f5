import Bongus.Num.DecimalValue

/-!
# The text of a decimal

A canonical decimal is read back from its text (`fromStr_display`), so the decimals that the engine
writes into its records are the ones it finds there (`canonicalExact_display`).
-/

set_option autoImplicit false
set_option relaxedAutoImplicit false

namespace Bongus.Num.ExactDecimal

open Lib.Float64 Lib.Text Lib.Numerals Lib.Fallible

/-! ### The characters of a text -/

/-- Digits with a point before the last places. -/
def plainChars (digits : List Char) (places : ℕ) : List Char :=
  if places = 0 then digits
  else if places < digits.length then
    digits.take (digits.length - places) ++ '.' :: digits.drop (digits.length - places)
  else '0' :: '.' :: (List.replicate (places - digits.length) '0' ++ digits)

theorem toList_plainText (digits : String) (places : ℕ) :
    (F64.plainText digits (-places)).toList = plainChars digits.toList places := by
  rw [F64.plainText, plainChars]
  by_cases hnone : places = 0
  · subst hnone
    simp
  have hneg : ¬ (0 : ℤ) ≤ -places := by omega
  have hplaces : (-(-(places : ℤ))).toNat = places := by omega
  rw [if_neg hneg, if_neg hnone, hplaces, ← String.length_toList]
  by_cases hinside : places < digits.toList.length
  · rw [if_pos hinside, if_pos hinside, String.toList_append, String.toList_append]
    have hfirst : ((digits.take (digits.toList.length - places)).toString).toList =
        digits.toList.take (digits.toList.length - places) := String.toList_copy_take
    have hlast : ((digits.drop (digits.toList.length - places)).toString).toList =
        digits.toList.drop (digits.toList.length - places) := String.toList_copy_drop
    rw [hfirst, hlast]
    simp
  · rw [if_neg hinside, if_neg hinside, String.toList_append, String.toList_append]
    simp

/-- The characters of a decimal: digits with at most one point, after a sign. -/
def IsPlain (text : List Char) : Prop := ∀ c ∈ text, c.isDigit = true ∨ c = '.'

theorem isPlain_plainChars {digits : List Char} (hdigits : Digits digits) (places : ℕ) :
    IsPlain (plainChars digits places) := by
  intro c hc
  rw [plainChars] at hc
  split at hc
  · exact Or.inl (hdigits c hc)
  split at hc
  · rcases List.mem_append.mp hc with hfirst | hlast
    · exact Or.inl (hdigits c (List.mem_of_mem_take hfirst))
    · rcases List.mem_cons.mp hlast with rfl | hlast
      · exact Or.inr rfl
      · exact Or.inl (hdigits c (List.mem_of_mem_drop hlast))
  · rcases List.mem_cons.mp hc with rfl | hc
    · exact Or.inl rfl
    rcases List.mem_cons.mp hc with rfl | hc
    · exact Or.inr rfl
    rcases List.mem_append.mp hc with hzero | hdigit
    · rw [List.eq_of_mem_replicate hzero]
      exact Or.inl rfl
    · exact Or.inl (hdigits c hdigit)

/-- A text starts with a digit. -/
theorem head_plainChars {digits : List Char} (hdigits : Digits digits) (hne : digits ≠ [])
    (places : ℕ) : ∃ c rest, plainChars digits places = c :: rest ∧ c.isDigit = true := by
  obtain ⟨c, rest, rfl⟩ := List.exists_cons_of_ne_nil hne
  have hc : c.isDigit = true := hdigits c List.mem_cons_self
  rw [plainChars]
  split
  · exact ⟨c, rest, rfl, hc⟩
  split
  · rename_i hinside
    obtain ⟨kept, hkept⟩ : ∃ kept, (c :: rest).length - places = kept + 1 :=
      Nat.exists_eq_succ_of_ne_zero (Nat.sub_ne_zero_of_lt hinside)
    rw [hkept]
    exact ⟨c, _, rfl, hc⟩
  · exact ⟨'0', _, rfl, rfl⟩

/-! ### Reading the characters -/

/-- Digits that are scanned are kept, and counted after a point. -/
theorem scan_digits {digits rest : List Char} (hdigits : Digits digits) (state : Scan)
    (hfits : state.sawDot = true → state.fractionalDigits + digits.length < 2 ^ 32) :
    scan (digits ++ rest) state = scan rest
      { state with
        digits := state.digits ++ digits
        fractionalDigits :=
          if state.sawDot then state.fractionalDigits + digits.length else state.fractionalDigits
        sawDigit := state.sawDigit || !digits.isEmpty } := by
  induction digits generalizing state with
  | nil => simp
  | cons c digits ih =>
    have hc : c.isDigit = true := hdigits c List.mem_cons_self
    have hrest : Digits digits := fun found hfound ↦ hdigits found (List.mem_cons_of_mem c hfound)
    have hroom : ¬ (state.sawDot = true ∧ ¬ state.fractionalDigits + 1 < 2 ^ 32) := by
      rintro ⟨hdot, hfull⟩
      have := hfits hdot
      rw [List.length_cons] at this
      omega
    rw [List.cons_append, scan, if_pos hc]
    dsimp only
    rw [if_neg hroom, ih hrest]
    · cases state.sawDot <;> simp [Nat.add_comm, Nat.add_left_comm]
    · intro hdot
      have hdot' : state.sawDot = true := hdot
      have := hfits hdot'
      rw [List.length_cons] at this
      dsimp only
      rw [if_pos hdot']
      omega

theorem scan_dot {rest : List Char} {state : Scan} (hdot : state.sawDot = false) :
    scan ('.' :: rest) state = scan rest { state with sawDot := true } := by
  rw [scan, if_neg (by decide), if_pos ⟨rfl, by simp [hdot]⟩]

/-- The digits that the scan of a text keeps. -/
def plainDigits (digits : List Char) (places : ℕ) : List Char :=
  if places < digits.length ∨ places = 0 then digits
  else '0' :: (List.replicate (places - digits.length) '0' ++ digits)

theorem digits_replicate (count : ℕ) : Digits (List.replicate count '0') := by
  intro c hc
  rw [List.eq_of_mem_replicate hc]
  rfl

theorem scan_plainChars {digits : List Char} (hdigits : Digits digits) (hne : digits ≠ [])
    {places : ℕ} (hplaces : places ≤ maxParsedScale) :
    ∃ state, scan (plainChars digits places) {} = .ok state ∧ state.sawDigit = true ∧
      state.fractionalDigits = places ∧ state.digits = plainDigits digits places := by
  have hsmall : places < 2 ^ 32 := lt_of_le_of_lt hplaces (by decide)
  have hsome : (!digits.isEmpty) = true := by simp [hne]
  rw [plainChars, plainDigits]
  by_cases hnone : places = 0
  · rw [if_pos hnone, if_pos (Or.inr hnone), ← List.append_nil digits,
      scan_digits hdigits {} (by simp)]
    exact ⟨_, rfl, by simpa using hne, hnone.symm, by simp⟩
  rw [if_neg hnone]
  by_cases hinside : places < digits.length
  · have hfirst : Digits (digits.take (digits.length - places)) :=
      fun c hc ↦ hdigits c (List.mem_of_mem_take hc)
    have hlast : Digits (digits.drop (digits.length - places)) :=
      fun c hc ↦ hdigits c (List.mem_of_mem_drop hc)
    have hlength : (digits.drop (digits.length - places)).length = places := by
      rw [List.length_drop]
      omega
    rw [if_pos hinside, if_pos (Or.inl hinside), scan_digits hfirst {} (by simp),
      scan_dot rfl, ← List.append_nil (digits.drop _), scan_digits hlast _ (by simp; omega)]
    refine ⟨_, rfl, ?_, ?_, ?_⟩
    · simp only [Bool.or_eq_true, Bool.not_eq_true', List.isEmpty_eq_false_iff]
      exact Or.inr fun hnil ↦ hnone (by rw [← hlength, hnil]; rfl)
    · simpa using hlength
    · simp
  · have hzeros := digits_replicate (places - digits.length)
    have hall : Digits (List.replicate (places - digits.length) '0' ++ digits) := by
      intro c hc
      rcases List.mem_append.mp hc with hzero | hdigit
      · exact hzeros c hzero
      · exact hdigits c hdigit
    have hlength : (List.replicate (places - digits.length) '0' ++ digits).length = places := by
      rw [List.length_append, List.length_replicate]
      omega
    rw [if_neg hinside, if_neg (not_or.mpr ⟨hinside, hnone⟩)]
    have hzero : scan ('0' :: '.' :: (List.replicate (places - digits.length) '0' ++ digits)) {} =
        scan ('.' :: (List.replicate (places - digits.length) '0' ++ digits))
          { digits := ['0'], sawDigit := true } := rfl
    rw [hzero, scan_dot rfl, ← List.append_nil (List.replicate _ _ ++ digits),
      scan_digits hall _ (by simp; omega)]
    exact ⟨_, rfl, rfl, by simpa using hlength, by simp⟩

theorem digits_plainDigits {digits : List Char} (hdigits : Digits digits) (places : ℕ) :
    Digits (plainDigits digits places) := by
  rw [plainDigits]
  split
  · exact hdigits
  · intro c hc
    rcases List.mem_cons.mp hc with rfl | hc
    · rfl
    rcases List.mem_append.mp hc with hzero | hdigit
    · exact digits_replicate _ c hzero
    · exact hdigits c hdigit

theorem plainDigits_ne_nil {digits : List Char} (hne : digits ≠ []) (places : ℕ) :
    plainDigits digits places ≠ [] := by
  rw [plainDigits]
  split
  · exact hne
  · exact List.cons_ne_nil _ _

/-- Zeros before the digits change nothing. -/
theorem digitsValue_plainDigits (digits : List Char) (places : ℕ) :
    digitsValue (plainDigits digits places) = digitsValue digits := by
  rw [plainDigits]
  split
  · rfl
  · rw [← List.cons_append, ← List.replicate_succ]
    have hzeros : Nat.ofDigitChars 10 (List.replicate (places - digits.length + 1) '0') 0 = 0 :=
      Nat.ofDigitChars_replicate_zero
    have happend := Nat.ofDigitChars_append (b := 10)
      (l := List.replicate (places - digits.length + 1) '0') (m := digits) 0
    rw [hzeros] at happend
    exact happend

theorem unsigned_of_isDigit {c : Char} (hc : c.isDigit = true) : c ≠ '-' ∧ c ≠ '+' := by
  refine ⟨?_, ?_⟩
  · rintro rfl
    exact absurd hc (by decide)
  · rintro rfl
    exact absurd hc (by decide)

theorem parseInteger_digits {width : ℕ} {digits : List Char} (hdigits : Digits digits)
    (hne : digits ≠ []) (hfits : fits width (digitsValue digits)) :
    parseInteger width digits = some (digitsValue digits : ℤ) := by
  obtain ⟨c, rest, rfl⟩ := List.exists_cons_of_ne_nil hne
  obtain ⟨hminus, hplus⟩ := unsigned_of_isDigit (hdigits c List.mem_cons_self)
  have hall : (c :: rest).all Char.isDigit = true := List.all_eq_true.mpr hdigits
  rw [parseInteger]
  split
  · rename_i hnone
    exact absurd hnone (not_or.mpr ⟨hne, not_not.mpr hall⟩)
  · exact if_pos hfits
  · exact fun _ heq ↦ hminus (List.cons.inj heq).1
  · exact fun _ heq ↦ hplus (List.cons.inj heq).1

/-! ### The round trip -/

theorem trim_eq_self {blank : Char → Bool} {text : String}
    (hvisible : ∀ c ∈ text.toList, blank c = false) : trim blank text = text := by
  have hstart : text.toList.dropWhile blank = text.toList := by
    rw [List.dropWhile_eq_self_iff]
    intro hpos hblank
    rw [hvisible _ (List.getElem_mem hpos)] at hblank
    cases hblank
  have hend : text.toList.rdropWhile blank = text.toList := by
    rw [List.rdropWhile_eq_self_iff]
    intro hne hblank
    rw [hvisible _ (List.getLast_mem hne)] at hblank
    cases hblank
  rw [trim, hstart, hend, String.ofList_toList]

theorem splitExponent_plain {text : List Char} (hplain : ∀ c ∈ text, c ≠ 'e' ∧ c ≠ 'E') :
    splitExponent text = .ok (text, 0) := by
  have hspan : text.span (fun c ↦ c ≠ 'e' && c ≠ 'E') = (text, []) := by
    rw [List.span_eq_takeWhile_dropWhile]
    have hall : ∀ c ∈ text, (decide (c ≠ 'e') && decide (c ≠ 'E')) = true := fun c hc ↦ by
      simpa using hplain c hc
    rw [List.takeWhile_eq_self_iff.mpr hall, List.dropWhile_eq_nil_iff.mpr hall]
  rw [splitExponent, hspan]

theorem unicodeBlank_eq_false {c : Char} (hlow : 32 < c.toNat) (hhigh : c.toNat < 128) :
    unicodeBlank c = false := by
  simp only [unicodeBlank, Bool.or_eq_false_iff, Bool.and_eq_false_iff, decide_eq_false_iff_not,
    beq_eq_false_iff_ne]
  omega

/-- The characters of a number are neither blanks nor marks of an exponent. -/
theorem plain_char {c : Char} (hc : c.isDigit = true ∨ c = '.' ∨ c = '-') :
    unicodeBlank c = false ∧ c ≠ 'e' ∧ c ≠ 'E' := by
  rcases hc with hdigit | rfl | rfl
  · obtain ⟨hlow, hhigh⟩ := digit_lt hdigit
    have hzero : '0'.toNat = 48 := rfl
    refine ⟨unicodeBlank_eq_false (by omega) (by omega), ?_, ?_⟩
    · rintro rfl
      exact absurd hdigit (by decide)
    · rintro rfl
      exact absurd hdigit (by decide)
  · decide
  · decide

theorem toList_renderUnits (units : ℤ) (scale : ℕ) :
    (renderUnits units scale).toList = (if units < 0 then ['-'] else []) ++
      plainChars (toString units.natAbs).toList scale := by
  rw [renderUnits]
  split
  · rw [String.toList_append, toList_plainText]
    rfl
  · rw [toList_plainText]
    rfl

/-- The text of units at a scale is read back, without the trailing zeros of the fraction. -/
theorem fromStr_renderUnits {units : ℤ} {scale : ℕ} (hunits : units.natAbs < 2 ^ 127)
    (hscale : scale ≤ maxParsedScale) :
    fromStr (renderUnits units scale) = .ok (normalized units scale) := by
  set digits := (toString units.natAbs).toList with hsignificand
  have hdigits : Digits digits := (⟨units, scale⟩ : ExactDecimal).digits_absoluteSignificand
  have habsolute : digits = Nat.toDigits 10 units.natAbs :=
    (⟨units, scale⟩ : ExactDecimal).absoluteSignificand_eq
  have hne : digits ≠ [] := by
    rw [habsolute]
    exact Nat.toDigits_ne_nil
  have hvalue : digitsValue (plainDigits digits scale) = units.natAbs := by
    rw [digitsValue_plainDigits, habsolute]
    exact Nat.ofDigitChars_ten_toDigits
  have hchars : ∀ c ∈ (renderUnits units scale).toList,
      unicodeBlank c = false ∧ c ≠ 'e' ∧ c ≠ 'E' := by
    intro c hc
    refine plain_char ?_
    rw [toList_renderUnits] at hc
    rcases List.mem_append.mp hc with hsign | hplain
    · split at hsign
      · exact Or.inr (Or.inr (List.mem_singleton.mp hsign))
      · cases hsign
    · rcases isPlain_plainChars hdigits scale c hplain with hdigit | hdot
      · exact Or.inl hdigit
      · exact Or.inr (Or.inl hdot)
  obtain ⟨first, rest, hplain, hfirst⟩ := head_plainChars hdigits hne scale
  obtain ⟨hminus, hplus⟩ := unsigned_of_isDigit hfirst
  obtain ⟨state, hscan, hsaw, hfraction, hkept⟩ :=
    scan_plainChars hdigits hne hscale
  have hinteger : parseInteger 128 state.digits = some (units.natAbs : ℤ) := by
    rw [hkept, ← hvalue]
    refine parseInteger_digits (digits_plainDigits hdigits _) (plainDigits_ne_nil hne _) ?_
    rw [hvalue, fits, decide_eq_true_eq]
    omega
  have htrim : trim unicodeBlank (renderUnits units scale) = renderUnits units scale :=
    trim_eq_self fun c hc ↦ (hchars c hc).1
  have hscaled : scaled units (scale : ℤ) = .ok (normalized units scale) := by
    have hnonneg : ¬ ((scale : ℤ) < 0) := by omega
    have hmax : maxParsedScale = 28 := rfl
    rw [scaled, if_neg hnonneg, if_neg (by omega), if_neg (by omega), Int.toNat_natCast]
  have hsplit : splitExponent (renderUnits units scale).toList =
      .ok ((renderUnits units scale).toList, 0) :=
    splitExponent_plain fun c hc ↦ (hchars c hc).2
  have htext := toList_renderUnits units scale
  rw [← hsignificand, hplain] at htext
  rw [hplain] at hscan
  rw [fromStr, htrim]
  dsimp only
  by_cases hneg : units < 0
  · have hsigned : -(units.natAbs : ℤ) = units := by omega
    rw [if_pos hneg] at htext
    rw [hsplit, htext]
    simp [hscan, hsaw, hinteger, hfraction, -Nat.cast_natAbs, hsigned, hscaled]
  · have hsigned : (units.natAbs : ℤ) = units := by omega
    rw [if_neg hneg, List.nil_append] at htext
    rw [hsplit, htext, if_neg (List.cons_ne_nil _ _)]
    simp [hminus, hplus, hscan, hsaw, hinteger, hfraction, -Nat.cast_natAbs, hsigned, hscaled]

/-- A canonical decimal is read back from its text. -/
theorem fromStr_display {d : ExactDecimal} (hd : Canonical d) : fromStr d.display = .ok d := by
  rw [display, fromStr_renderUnits hd.fits hd.scale_le, hd.normalized_eq]

/-! ### What is read -/

theorem digits_of_scan {text : List Char} {state found : Scan} (hscan : scan text state = .ok found)
    (hdigits : Digits state.digits) : Digits found.digits := by
  induction text generalizing state with
  | nil =>
    cases hscan
    exact hdigits
  | cons c rest ih =>
    rw [scan] at hscan
    split at hscan
    · rename_i hc
      dsimp only at hscan
      split at hscan
      · cases hscan
      · refine ih hscan fun digit hdigit ↦ ?_
        rcases List.mem_append.mp hdigit with hbefore | hlast
        · exact hdigits digit hbefore
        · rw [List.mem_singleton.mp hlast]
          exact hc
    split at hscan
    · exact ih hscan hdigits
    · cases hscan

theorem parseInteger_of_digits {digits : List Char} {units : ℤ} (hdigits : Digits digits)
    (hunits : parseInteger 128 digits = some units) : units.natAbs < 2 ^ 127 := by
  have hne : digits ≠ [] := by
    rintro rfl
    cases hunits
  by_cases hfits : fits 128 (digitsValue digits)
  · rw [parseInteger_digits hdigits hne hfits] at hunits
    cases hunits
    exact natAbs_lt_of_fits hfits (Int.natCast_nonneg _)
  · obtain ⟨c, rest, rfl⟩ := List.exists_cons_of_ne_nil hne
    obtain ⟨hminus, hplus⟩ := unsigned_of_isDigit (hdigits c List.mem_cons_self)
    simp [parseInteger, hminus, hplus, hfits] at hunits

/-- The decimal of a text is canonical. -/
theorem canonical_of_scaled {units targetScale : ℤ} {d : ExactDecimal}
    (hunits : units.natAbs < 2 ^ 127) (hscaled : scaled units targetScale = .ok d) :
    Canonical d := by
  rw [scaled] at hscaled
  split at hscaled
  · rename_i hneg
    split at hscaled
    · cases hscaled
    rename_i factor hfactor
    split at hscaled
    · cases hscaled
    rename_i product hproduct
    cases hscaled
    obtain ⟨rfl, hfits⟩ := checkedMul_eq_some hproduct
    -- The least number is not a multiple of ten.
    obtain ⟨power, hpower⟩ : ∃ power, (-targetScale).toNat = power + 1 :=
      Nat.exists_eq_succ_of_ne_zero (by omega)
    have hten : units * factor % 10 = 0 := by
      rw [pow10_eq_some hfactor, hpower, pow_succ, ← mul_assoc]
      exact Int.mul_emod_left _ _
    refine canonical_normalized ?_ (Nat.zero_le _)
    rw [fits, decide_eq_true_eq] at hfits
    omega
  split at hscaled
  · cases hscaled
  split at hscaled
  · cases hscaled
  · cases hscaled
    exact canonical_normalized hunits (by omega)

theorem canonical_of_fromStr {raw : String} {d : ExactDecimal} (hread : fromStr raw = .ok d) :
    Canonical d := by
  simp only [fromStr, throw_bind, check_eq_ok, bind_eq_ok, Prod.exists] at hread
  obtain ⟨-, mantissa, exponent, -, -, state, hscan, -, hscaled⟩ := hread
  have hdigits : Digits state.digits := digits_of_scan hscan fun c hc ↦ by cases hc
  split at hscaled
  · cases hscaled
  rename_i units hunits
  have hbound := parseInteger_of_digits hdigits hunits
  refine canonical_of_scaled ?_ hscaled
  rw [apply_ite Int.natAbs, Int.natAbs_neg, ite_self]
  exact hbound

theorem canonicalSignedExact_display {d : ExactDecimal} (hd : Canonical d) :
    canonicalSignedExact d.display = some d := by
  simp [canonicalSignedExact, fromStr_display hd, Except.toOption]

theorem canonicalExact_display {d : ExactDecimal} (hd : Canonical d) (hnonneg : 0 ≤ d.value) :
    canonicalExact d.display = some d := by
  rw [canonicalExact, canonicalSignedExact_display hd, Option.filter_some, if_pos]
  exact decide_eq_true (cmp_zero_ne_lt.mpr hnonneg)

theorem of_canonicalSignedExact {raw : String} {d : ExactDecimal}
    (hread : canonicalSignedExact raw = some d) : Canonical d ∧ d.display = raw := by
  rw [canonicalSignedExact, Option.filter_eq_some_iff, toOption_eq_some, decide_eq_true_eq] at hread
  exact ⟨canonical_of_fromStr hread.1, hread.2⟩

end Bongus.Num.ExactDecimal
