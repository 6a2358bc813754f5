import Mathlib.Data.Rat.Floor
import Mathlib.Data.Int.Log
import Mathlib.Data.Nat.Log
import Mathlib.Algebra.Order.Ring.Rat

/-!
# Binary64 numbers by their bits

A double is its 64 bits. `value` is the rational it denotes when it is finite, `isZero` its equality
with zero (both signs), and `display` its shortest decimal text that reads back as the same double,
written without an exponent. `hexBits` is the text of the bits themselves.
-/

set_option autoImplicit false
set_option relaxedAutoImplicit false

namespace Bongus.Lib.Float64

abbrev F64 := BitVec 64

namespace F64

def negative (x : F64) : Bool := 2 ^ 63 ≤ x.toNat

def exponentBits (x : F64) : ℕ := x.toNat / 2 ^ 52 % 2 ^ 11

def fractionBits (x : F64) : ℕ := x.toNat % 2 ^ 52

def isFinite (x : F64) : Bool := x.exponentBits ≠ 2047

/-- Equality with zero, which both signed zeros satisfy and no other double. -/
def isZero (x : F64) : Bool := x.toNat % 2 ^ 63 = 0

/-- The integer significand of a finite double. -/
def significand (x : F64) : ℕ :=
  if x.exponentBits = 0 then x.fractionBits else x.fractionBits + 2 ^ 52

/-- The power of two its significand is scaled by. -/
def exponent (x : F64) : ℤ :=
  if x.exponentBits = 0 then -1074 else (x.exponentBits : ℤ) - 1075

def magnitude (x : F64) : ℚ := x.significand * (2 : ℚ) ^ x.exponent

/-- The rational a finite double denotes. -/
def value (x : F64) : ℚ := if x.negative then -x.magnitude else x.magnitude

/-- The value of the double nearest to a positive rational, the even one of two. -/
def nearest (q : ℚ) : ℚ :=
  let gap : ℚ := (2 : ℚ) ^ max (Int.log 2 q - 52) (-1074)
  let steps := ⌊q / gap⌋
  let rest := q / gap - steps
  if rest < 1 / 2 ∨ (rest = 1 / 2 ∧ steps % 2 = 0) then steps * gap else (steps + 1) * gap

/-- The double next to a natural number, none if it is too large. -/
def ofNat (n : ℕ) : Option F64 :=
  let rounded := nearest n
  let exponent := Int.log 2 rounded
  if n = 0 then some 0
  else if 1023 < exponent then none
  else some (BitVec.ofNat 64 ((exponent + 1023).toNat * 2 ^ 52 +
    ⌊(rounded / (2 : ℚ) ^ exponent - 1) * 2 ^ 52⌋.toNat))

/-- The double next to an integer. -/
def ofInt (i : ℤ) : Option F64 :=
  (ofNat i.natAbs).map fun x ↦ if i < 0 then x ||| 0x8000000000000000 else x

/-! ### The shortest text -/

/-- A positive rational reads back as the double: it lies between the midpoints to the neighbours,
and on a midpoint only if the significand is even. -/
def readsBack (x : F64) (candidate : ℚ) : Bool :=
  let gap : ℚ := (2 : ℚ) ^ x.exponent
  let below : ℚ := if x.fractionBits = 0 ∧ 1 < x.exponentBits then gap / 2 else gap
  let low := x.magnitude - below / 2
  let high := x.magnitude + gap / 2
  if x.significand % 2 = 0 then low ≤ candidate ∧ candidate ≤ high
  else low < candidate ∧ candidate < high

/-- The decimal exponent of the first digit. Every positive double is above `10 ^ (-400)`. -/
def decimalExponent (x : F64) : ℤ :=
  (Nat.log 10 ⌊x.magnitude * 10 ^ 400⌋₊ : ℤ) - 400

/-- The closest decimal of `width` digits that reads back, as its digits and its exponent. -/
def decimalOfWidth (x : F64) (width : ℕ) : Option (ℕ × ℤ) :=
  let scale : ℤ := x.decimalExponent - width + 1
  let scaled := x.magnitude / (10 : ℚ) ^ scale
  let low := ⌊scaled⌋₊
  let high := low + 1
  let lowReads := x.readsBack (low * (10 : ℚ) ^ scale)
  let highReads := x.readsBack (high * (10 : ℚ) ^ scale)
  let lowCloser := scaled - low < high - scaled ∨ (scaled - low = high - scaled ∧ low % 2 = 0)
  if lowReads ∧ (lowCloser ∨ ¬ highReads) then some (low, scale)
  else if highReads then some (high, scale)
  else none

/-- The shortest decimal that reads back; seventeen digits always do. -/
def shortest (x : F64) : ℕ × ℤ :=
  ((List.range 17).findSome? fun width ↦ x.decimalOfWidth (width + 1)).getD (0, 0)

/-- Digits with a decimal point at a power of ten, without an exponent. -/
def plainText (digits : String) (exponent : ℤ) : String :=
  if 0 ≤ exponent then digits ++ String.ofList (List.replicate exponent.toNat '0')
  else
    let places := (-exponent).toNat
    if places < digits.length then
      (digits.take (digits.length - places)).toString ++ "." ++
        (digits.drop (digits.length - places)).toString
    else "0." ++ String.ofList (List.replicate (places - digits.length) '0') ++ digits

/-- The text of a finite double. -/
def display (x : F64) : String :=
  let unsigned :=
    if x.isZero then "0"
    else
      let decimal := x.shortest
      plainText (toString decimal.1) decimal.2
  if x.negative then "-" ++ unsigned else unsigned

/-- The sixteen hexadecimal digits of the bits. -/
def hexBits (x : F64) : String :=
  String.ofList ((List.range 16).map fun place ↦ Nat.digitChar (x.toNat / 16 ^ (15 - place) % 16))

example : display 0x3ff0000000000000 = "1" := by decide +kernel

example : display 0x3fb999999999999a = "0.1" := by decide +kernel

example : ofInt (-5) = some 0xc014000000000000 := by decide +kernel

example : hexBits 0x3fb999999999999a = "3fb999999999999a" := by decide

end F64

end Bongus.Lib.Float64
