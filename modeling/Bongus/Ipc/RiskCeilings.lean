import Bongus.Ipc.ConfigSnapshot
import Bongus.Num.DecimalReading

/-!
# Risk limits as exact numbers

`compare_positive_decimals` of `execution_engine/src/ipc.rs` compares two number texts of any length
by the place of their first digit and then digit by digit. A text it accepts denotes a positive
number, and the comparison is that of the numbers (`comparePositiveDecimals_eq_some`). So the limits
of every configuration document that the engine accepts are positive and within the compiled
ceilings as exact numbers, and the limit of one symbol is within the gross limit
(`risk_limits_exact`).
-/

set_option autoImplicit false
set_option relaxedAutoImplicit false

namespace Bongus.Ipc

open Num Lib.Text Lib.Fallible Lib.NumberTexts
open Lib.Numerals (Digits)

/-! ### The numbers of the texts -/

theorem leading_dropWhile {digits : List Char} (hdigits : Digits digits)
    (hne : digits.dropWhile (fun digit ↦ digit = '0') ≠ []) :
    Leading (digits.dropWhile fun digit ↦ digit = '0') := by
  refine ⟨fun c hc ↦ hdigits c ((List.dropWhile_sublist _).subset hc), ?_⟩
  obtain ⟨c, rest, hkept⟩ := List.exists_cons_of_ne_nil hne
  refine ⟨c, rest, hkept, ?_⟩
  have hstop := List.head?_dropWhile_not (fun digit ↦ decide (digit = '0')) digits
  rw [hkept] at hstop
  simpa using hstop

/-- The digits and the place of the point give the number of the digits as they were written. -/
theorem positioned_dropWhile (integer fraction : List Char) (exponent : ℤ) :
    positioned ((integer ++ fraction).dropWhile fun digit ↦ digit = '0')
        (integer.length + exponent - (((integer ++ fraction).length : ℤ) -
          ((integer ++ fraction).dropWhile fun digit ↦ digit = '0').length)) =
      number (integer ++ fraction) * 10 ^ (exponent - fraction.length) := by
  rw [positioned, number_dropWhile_zeros]
  congr 2
  rw [List.length_append]
  push_cast
  ring

/-- The text before the exponent mark, and the exponent. -/
def exponentParts (text : List Char) : Option (List Char × ℤ) :=
  match pieces (fun c ↦ c = 'e' || c = 'E') text with
  | [mantissa] => some (mantissa, 0)
  | [mantissa, exponent] =>
    (ExactDecimal.parseInteger 64 exponent).map fun value ↦ (mantissa, value)
  | _ => none

/-- The digits before and after the point. -/
def pointParts (mantissa : List Char) : Option (List Char × List Char) :=
  match pieces (· = '.') mantissa with
  | [integer] => some (integer, [])
  | [integer, fraction] => if fraction = [] then none else some (integer, fraction)
  | _ => none

/-- The digits without leading zeros, and the place of the point. -/
def digitParts (integer fraction : List Char) (exponent : ℤ) : Option (List Char × ℤ) :=
  let digits := (integer ++ fraction).dropWhile fun digit ↦ digit = '0'
  if integer = [] ∨ ¬ integer.all Char.isDigit ∨ ¬ fraction.all Char.isDigit then none
  else if digits = [] then none
  else some (digits, integer.length + exponent - (((integer ++ fraction).length : ℤ) -
    digits.length))

theorem exponentParts_bind {α : Type} (text : List Char) (next : List Char × ℤ → Option α) :
    (exponentParts text).bind next =
      match pieces (fun c ↦ c = 'e' || c = 'E') text with
      | [mantissa] => (some (mantissa, 0)).bind next
      | [mantissa, exponent] =>
        ((ExactDecimal.parseInteger 64 exponent).map fun value ↦ (mantissa, value)).bind next
      | _ => none := by
  rw [exponentParts]
  split <;> rfl

theorem pointParts_bind {α : Type} (mantissa : List Char)
    (next : List Char × List Char → Option α) :
    (pointParts mantissa).bind next =
      match pieces (· = '.') mantissa with
      | [integer] => (some (integer, [])).bind next
      | [integer, fraction] =>
        if fraction = [] then none else (some (integer, fraction)).bind next
      | _ => none := by
  rw [pointParts]
  split
  · rfl
  · split <;> rfl
  · rfl

theorem normalizedPositiveDecimal_eq (raw : String) :
    normalizedPositiveDecimal raw =
      if raw.toList = [] ∨ raw.toList.head? = some '-' ∨ raw.toList.head? = some '+' then none
      else (exponentParts raw.toList).bind fun part ↦
        if part.2.natAbs > 1000000 then none
        else (pointParts part.1).bind fun parts ↦ digitParts parts.1 parts.2 part.2 := by
  simp only [exponentParts_bind, pointParts_bind]
  rfl

theorem exponentParts_eq_some {text mantissa : List Char} {exponent : ℤ}
    (hparts : exponentParts text = some (mantissa, exponent)) :
    ∃ exponentText, text = mantissa ++ exponentText ∧ Exponent exponentText exponent := by
  rw [exponentParts] at hparts
  split at hparts
  · rename_i only hpieces
    cases hparts
    exact ⟨[], by rw [pieces_eq_singleton hpieces, List.append_nil], .none⟩
  · rename_i first second hpieces
    obtain ⟨value, hvalue, hpair⟩ := Option.map_eq_some_iff.mp hparts
    cases hpair
    obtain ⟨c, hmark, htext⟩ := pieces_eq_pair hpieces
    obtain ⟨sign, digits, factor, rfl, hsign, hdigits, hne, rfl⟩ :=
      ExactDecimal.parseInteger_eq_some hvalue
    rw [Bool.or_eq_true, decide_eq_true_eq, decide_eq_true_eq] at hmark
    exact ⟨_, htext, .mark hmark hsign hdigits hne⟩
  · cases hparts

theorem pointParts_eq_some {mantissa integer fraction : List Char}
    (hparts : pointParts mantissa = some (integer, fraction)) (hfraction : Digits fraction) :
    ∃ fractionText, mantissa = integer ++ fractionText ∧ Fraction fractionText fraction := by
  rw [pointParts] at hparts
  split at hparts
  · rename_i only hpieces
    cases hparts
    exact ⟨[], by rw [pieces_eq_singleton hpieces, List.append_nil], .none⟩
  · rename_i first second hpieces
    split at hparts
    · cases hparts
    cases hparts
    obtain ⟨c, hpoint, htext⟩ := pieces_eq_pair hpieces
    rw [of_decide_eq_true hpoint] at htext
    exact ⟨'.' :: fraction, htext, .point hfraction⟩
  · cases hparts

/-- A text that is accepted denotes the positive number of its digits. -/
theorem normalizedPositiveDecimal_eq_some {raw : String} {digits : List Char} {position : ℤ}
    (hread : normalizedPositiveDecimal raw = some (digits, position)) :
    Leading digits ∧ ∃ places, Denotes raw.toList places (positioned digits position) := by
  rw [normalizedPositiveDecimal_eq] at hread
  split at hread
  · cases hread
  obtain ⟨⟨mantissa, exponent⟩, hmantissa, hread⟩ := Option.bind_eq_some_iff.mp hread
  split at hread
  · cases hread
  obtain ⟨⟨integer, fraction⟩, hpoint, hread⟩ := Option.bind_eq_some_iff.mp hread
  rw [digitParts] at hread
  dsimp only at hread
  split at hread
  · cases hread
  rename_i hdigits
  rw [not_or, not_or, not_not, not_not, List.all_eq_true, List.all_eq_true] at hdigits
  obtain ⟨hne, hinteger, hfraction⟩ := hdigits
  split at hread
  · cases hread
  rename_i hkept
  cases hread
  have hall : Digits (integer ++ fraction) := by
    intro c hc
    rcases List.mem_append.mp hc with hc | hc
    · exact hinteger c hc
    · exact hfraction c hc
  obtain ⟨exponentText, htext, hexponent⟩ := exponentParts_eq_some hmantissa
  obtain ⟨fractionText, rfl, hpart⟩ := pointParts_eq_some hpoint hfraction
  have hdenotes := Denotes.mk .none hinteger hpart (List.append_ne_nil_of_left_ne_nil hne _)
    hexponent
  rw [List.nil_append, ← List.append_assoc, ← htext, Int.cast_one, one_mul] at hdenotes
  refine ⟨leading_dropWhile hall hkept, fraction.length, ?_⟩
  rwa [positioned_dropWhile]

/-- The comparison of two accepted texts is that of their numbers. -/
theorem comparePositiveDecimals_eq_some {left right : String} {order : Ordering}
    (hcompare : comparePositiveDecimals left right = some order) :
    ∃ leftPlaces x rightPlaces y, Denotes left.toList leftPlaces x ∧
      Denotes right.toList rightPlaces y ∧ 0 < x ∧ 0 < y ∧ order = compare x y := by
  simp only [comparePositiveDecimals, Option.bind_eq_bind, Option.bind_eq_some_iff, Prod.exists,
    Option.pure_def, Option.some.injEq] at hcompare
  obtain ⟨leftDigits, leftPosition, hleft, rightDigits, rightPosition, hright, rfl⟩ := hcompare
  obtain ⟨hleftLeading, leftPlaces, hleftDenotes⟩ := normalizedPositiveDecimal_eq_some hleft
  obtain ⟨hrightLeading, rightPlaces, hrightDenotes⟩ := normalizedPositiveDecimal_eq_some hright
  exact ⟨leftPlaces, _, rightPlaces, _, hleftDenotes, hrightDenotes,
    positioned_pos hleftLeading _, positioned_pos hrightLeading _,
    compare_positioned rfl ExactDecimal.compareDigits_step hleftLeading hrightLeading _ _⟩

theorem atMost_iff {left right : String} : atMost left right = true ↔
    ∃ order, comparePositiveDecimals left right = some order ∧ order ≠ .gt := by
  rw [atMost]
  split
  · rename_i hnone
    simp [hnone]
  · rename_i order hsome
    simp [hsome]

/-- A text is within another as exact numbers. -/
theorem le_of_atMost {left right : String} (hwithin : atMost left right = true) :
    ∃ leftPlaces x rightPlaces y, Denotes left.toList leftPlaces x ∧
      Denotes right.toList rightPlaces y ∧ 0 < x ∧ x ≤ y := by
  obtain ⟨order, hcompare, hle⟩ := atMost_iff.mp hwithin
  obtain ⟨leftPlaces, x, rightPlaces, y, hx, hy, hpos, -, rfl⟩ :=
    comparePositiveDecimals_eq_some hcompare
  exact ⟨leftPlaces, x, rightPlaces, y, hx, hy, hpos, compare_le_iff_le.mp hle⟩

/-- The text of a compiled ceiling. -/
theorem denotes_natural (number : ℕ) : Denotes (toString number).toList 0 number := by
  have hdenotes := ExactDecimal.denotes_renderUnits number 0
  rwa [ExactDecimal.toList_renderUnits, if_neg (Int.natCast_nonneg number).not_gt, List.nil_append,
    ExactDecimal.plainChars, if_pos rfl, Int.natAbs_natCast, pow_zero, div_one,
    Int.cast_natCast] at hdenotes

/-! ### The limits of a document -/

theorem riskLimits_eq_ok {fields : List (String × Json)} {perSymbol maxGross : String}
    (hlimits : riskLimits fields = .ok (perSymbol, maxGross)) :
    (fields.lookup "per_symbol_notional_cap_usd").bind Json.numberText = some perSymbol ∧
      (fields.lookup "max_gross_exposure_usd").bind Json.numberText = some maxGross ∧
      atMost perSymbol (toString compiledMaxPerSymbolNotionalUsd) = true ∧
      atMost maxGross (toString compiledMaxGrossExposureUsd) = true ∧
      atMost perSymbol maxGross = true := by
  unfold riskLimits at hlimits
  split at hlimits
  · rename_i perSymbol' maxGross' hperSymbol hmaxGross
    split_ifs at hlimits with hceilings hconsistent
    cases hlimits
    rw [not_or, not_not, not_not] at hceilings
    exact ⟨hperSymbol, hmaxGross, hceilings.1, hceilings.2, hconsistent⟩
  · cases hlimits

variable (crates : Crates)

/-- The document of an accepted snapshot, and its limits. -/
theorem document_of_validate {instruction : AlphaInstruction} {snapshot : ValidatedConfigSnapshot}
    (hvalidate : instruction.validateConfigSyncSnapshot crates = .ok snapshot) :
    ∃ fields, crates.parseJson (orEmpty instruction.configCanonicalJson) = some (.object fields) ∧
      crates.jsonText (.object fields) = orEmpty instruction.configCanonicalJson ∧
      riskLimits fields =
        .ok (snapshot.perSymbolNotionalCapUsd, snapshot.maxGrossExposureUsd) := by
  simp only [AlphaInstruction.validateConfigSyncSnapshot, throw_bind, check_eq_ok, bind_eq_ok]
    at hvalidate
  obtain ⟨-, -, -, fields, hdocument, -, -, hsnapshot⟩ := hvalidate
  unfold configDocument at hdocument
  split at hdocument
  · rename_i parsed hparse
    split_ifs at hdocument with hcanonical
    cases hdocument
    refine ⟨fields, hparse, not_not.mp hcanonical, ?_⟩
    unfold snapshotOf at hsnapshot
    split at hsnapshot
    · cases hsnapshot
    · simp only [bind_eq_ok, pure_eq_ok] at hsnapshot
      obtain ⟨limits, hlimits, -, -, -, -, -, -, -, -, rfl⟩ := hsnapshot
      exact hlimits
  · cases hdocument

/-- Two accepted texts compare as the numbers they denote, and every accepted document has positive
limits that are within the compiled ceilings and within each other. -/
theorem risk_limits_exact :
    (∀ left right order, comparePositiveDecimals left right = some order →
      ∃ leftPlaces x rightPlaces y, Denotes left.toList leftPlaces x ∧
        Denotes right.toList rightPlaces y ∧ order = compare x y) ∧
    ∀ (instruction : AlphaInstruction) (snapshot : ValidatedConfigSnapshot),
      instruction.validateConfigSyncSnapshot crates = .ok snapshot →
      ∃ fields perSymbolText grossText perSymbolPlaces perSymbol grossPlaces gross,
        crates.parseJson (orEmpty instruction.configCanonicalJson) = some (.object fields) ∧
        crates.jsonText (.object fields) = orEmpty instruction.configCanonicalJson ∧
        (fields.lookup "per_symbol_notional_cap_usd").bind Json.numberText = some perSymbolText ∧
        (fields.lookup "max_gross_exposure_usd").bind Json.numberText = some grossText ∧
        Denotes perSymbolText.toList perSymbolPlaces perSymbol ∧
        Denotes grossText.toList grossPlaces gross ∧
        0 < perSymbol ∧ perSymbol ≤ compiledMaxPerSymbolNotionalUsd ∧
        0 < gross ∧ gross ≤ compiledMaxGrossExposureUsd ∧ perSymbol ≤ gross := by
  constructor
  · intro left right order hcompare
    obtain ⟨leftPlaces, x, rightPlaces, y, hx, hy, -, -, horder⟩ :=
      comparePositiveDecimals_eq_some hcompare
    exact ⟨leftPlaces, x, rightPlaces, y, hx, hy, horder⟩
  · intro instruction snapshot hvalidate
    obtain ⟨fields, hparse, htext, hlimits⟩ := document_of_validate crates hvalidate
    obtain ⟨hperSymbol, hgross, hsymbolCeiling, hgrossCeiling, hconsistent⟩ :=
      riskLimits_eq_ok hlimits
    obtain ⟨_, perSymbol, _, gross, hx, hy, hxPos, hle⟩ := le_of_atMost hconsistent
    obtain ⟨_, x, _, ceiling, hx', hceiling, -, hxLe⟩ := le_of_atMost hsymbolCeiling
    obtain ⟨_, y, _, grossCeiling, hy', hgrossDenotes, hyPos, hyLe⟩ := le_of_atMost hgrossCeiling
    -- Each text denotes one number, so the three comparisons are about the same numbers.
    rw [(hx'.unique hx).2, (hceiling.unique (denotes_natural _)).2] at hxLe
    rw [(hy'.unique hy).2, (hgrossDenotes.unique (denotes_natural _)).2] at hyLe
    rw [(hy'.unique hy).2] at hyPos
    exact ⟨fields, _, _, _, perSymbol, _, gross, hparse, htext, hperSymbol, hgross, hx, hy, hxPos,
      hxLe, hyPos, hyLe, hle⟩

/-- A document whose limits are written with an exponent and with a fraction. -/
def limitFields : List (String × Json) :=
  [("pause_new_entries", .bool false), ("per_symbol_notional_cap_usd", .number "2.5e3" none),
    ("max_gross_exposure_usd", .number "9999.999999999999999999" none),
    ("emergency_exit_max_retries", .number "2" (some 2)),
    ("emergency_exit_readback_attempts", .number "3" (some 3)),
    ("emergency_exit_max_slippage_bps", .number "50" (some 50))]

def limitHash : String := String.ofList (List.replicate 64 'a')

def limitCrates : Crates :=
  .ascii (fun _ ↦ limitHash) (fun _ ↦ some (.object limitFields)) (fun _ ↦ "limits")

def limitInstruction : AlphaInstruction where
  intent := "CONFIG_SYNC"
  configVersionHash := some limitHash
  configCanonicalJson := some "limits"

theorem risk_limits_exact_sample :
    (∃ snapshot, limitInstruction.validateConfigSyncSnapshot limitCrates = .ok snapshot) ∧
      ∃ perSymbolPlaces perSymbol, Denotes "2.5e3".toList perSymbolPlaces perSymbol ∧
        0 < perSymbol ∧ perSymbol ≤ compiledMaxPerSymbolNotionalUsd := by
  have hvalidate : ∃ snapshot,
      limitInstruction.validateConfigSyncSnapshot limitCrates = .ok snapshot := ⟨_, rfl⟩
  refine ⟨hvalidate, ?_⟩
  obtain ⟨snapshot, hsnapshot⟩ := hvalidate
  obtain ⟨fields, perSymbolText, _, places, perSymbol, _, _, hparse, -, hperSymbol, -, hdenotes, -,
    hpos, hle, -⟩ := (risk_limits_exact limitCrates).2 limitInstruction snapshot hsnapshot
  cases hparse
  cases hperSymbol
  exact ⟨places, perSymbol, hdenotes, hpos, hle⟩

end Bongus.Ipc
