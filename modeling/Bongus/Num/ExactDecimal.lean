import Bongus.Lib.Fallible
import Bongus.Lib.Float64
import Bongus.Lib.Text

/-!
# Checked decimals

`execution_engine/src/exact_decimal.rs`, as far as the command protocol uses it: reading a decimal
text, the order of two decimals and their text. The units are a signed 128-bit integer, and a text
whose units do not fit is refused.
-/

set_option autoImplicit false
set_option relaxedAutoImplicit false

namespace Bongus.Num

open Lib.Float64 Lib.Text

/-- The greatest scale a text may have. -/
def maxParsedScale : ℕ := 28

structure ExactDecimal where
  units : ℤ
  scale : ℕ
deriving DecidableEq, Repr

namespace ExactDecimal

def zero : ExactDecimal := ⟨0, 0⟩

def isPositive (d : ExactDecimal) : Bool := d.units > 0

/-- A number that fits a signed integer of `width` bits. -/
def fits (width : ℕ) (n : ℤ) : Bool := -2 ^ (width - 1) ≤ n ∧ n < 2 ^ (width - 1)

def checkedMul (x y : ℤ) : Option ℤ := if fits 128 (x * y) then some (x * y) else none

/-- The powers of ten that fit are those up to `10 ^ 38`. -/
def pow10 (power : ℕ) : Option ℤ := if power ≤ 38 then some (10 ^ power) else none

/-- Trailing zeros of the fraction are dropped. -/
def normalized : ℤ → ℕ → ExactDecimal
  | units, 0 => ⟨units, 0⟩
  | units, scale + 1 =>
    if units % 10 = 0 then normalized (units / 10) scale else ⟨units, scale + 1⟩

/-! ### Reading a text -/

/-- The number that decimal digits denote. -/
def digitsValue (digits : List Char) : ℕ :=
  digits.foldl (fun value digit ↦ 10 * value + (digit.toNat - '0'.toNat)) 0

/-- A signed integer of `width` bits: an optional sign and at least one digit. -/
def parseInteger (width : ℕ) (text : List Char) : Option ℤ :=
  let (negative, digits) := match text with
    | '-' :: rest => (true, rest)
    | '+' :: rest => (false, rest)
    | _ => (false, text)
  if digits = [] ∨ ¬ digits.all Char.isDigit then none
  else
    let value : ℤ := if negative then -digitsValue digits else digitsValue digits
    if fits width value then some value else none

structure Scan where
  digits : List Char := []
  fractionalDigits : ℕ := 0
  sawDot : Bool := false
  sawDigit : Bool := false

def scan : List Char → Scan → Except String Scan
  | [], state => .ok state
  | c :: rest, state =>
    if c.isDigit then
      let fractional := state.fractionalDigits + 1
      if state.sawDot ∧ ¬ fractional < 2 ^ 32 then .error "decimal scale overflow"
      else scan rest
        { state with
          digits := state.digits ++ [c]
          fractionalDigits := if state.sawDot then fractional else state.fractionalDigits
          sawDigit := true }
    else if c = '.' ∧ ¬ state.sawDot then scan rest { state with sawDot := true }
    else .error "invalid decimal character"

/-- The text before the exponent mark, and the exponent. -/
def splitExponent (raw : List Char) : Except String (List Char × ℤ) :=
  match raw.span fun c ↦ c ≠ 'e' && c ≠ 'E' with
  | (mantissa, []) => .ok (mantissa, 0)
  | (mantissa, _ :: exponent) =>
    match parseInteger 32 exponent with
    | none => .error "invalid exponent"
    | some value => .ok (mantissa, value)

/-- Units at a scale that may be negative. -/
def scaled (units targetScale : ℤ) : Except String ExactDecimal :=
  if targetScale < 0 then
    match pow10 (-targetScale).toNat with
    | none => .error "decimal exponent overflow"
    | some factor =>
      match checkedMul units factor with
      | none => .error "decimal significand overflow"
      | some product => .ok (normalized product 0)
  else if targetScale ≥ 2 ^ 32 then .error "decimal scale overflow"
  else if targetScale > maxParsedScale then
    .error "decimal scale exceeds supported exchange precision"
  else .ok (normalized units targetScale.toNat)

def fromStr (raw : String) : Except String ExactDecimal := do
  let text := (trim unicodeBlank raw).toList
  if text = [] then throw "empty decimal"
  let (mantissa, exponent) ← splitExponent text
  let (negative, unsigned) := match mantissa with
    | '-' :: rest => (true, rest)
    | '+' :: rest => (false, rest)
    | _ => (false, mantissa)
  if unsigned = [] then throw "missing decimal digits"
  let state ← scan unsigned {}
  if ¬ state.sawDigit then throw "missing decimal digits"
  match parseInteger 128 state.digits with
  | none => throw "decimal significand overflow"
  | some units =>
    scaled (if negative then -units else units) ((state.fractionalDigits : ℤ) - exponent)

/-! ### Text and order -/

def renderUnits (units : ℤ) (scale : ℕ) : String :=
  let rendered := F64.plainText (toString units.natAbs) (-scale)
  if units < 0 then "-" ++ rendered else rendered

def display (d : ExactDecimal) : String := renderUnits d.units d.scale

/-- A double is read through its own decimal text. -/
def fromF64 (value : F64) : Option ExactDecimal :=
  if value.isFinite then (fromStr value.display).toOption else none

def absoluteSignificand (d : ExactDecimal) : List Char := (toString d.units.natAbs).toList

def magnitudeExponent (d : ExactDecimal) : ℤ := (d.absoluteSignificand.length : ℤ) - d.scale

/-- Zeros against digits. -/
def compareZeros : List Char → Ordering
  | [] => .eq
  | b :: bs => (compare '0' b).then (compareZeros bs)

/-- Digits compared from the left, the shorter text continued with zeros. -/
def compareDigits : List Char → List Char → Ordering
  | [], right => compareZeros right
  | a :: as, right => (compare a (right.headD '0')).then (compareDigits as right.tail)

def cmp (left right : ExactDecimal) : Ordering :=
  if left.units.sign ≠ right.units.sign then compare left.units.sign right.units.sign
  else if left.units = 0 then .eq
  else
    let order := (compare left.magnitudeExponent right.magnitudeExponent).then
      (compareDigits left.absoluteSignificand right.absoluteSignificand)
    if left.units > 0 then order else order.swap

example : fromStr "1.23E3" = .ok ⟨1230, 0⟩ := by decide +kernel

example : fromF64 0x3fb999999999999a = some ⟨1, 1⟩ := by decide +kernel

end ExactDecimal

end Bongus.Num
