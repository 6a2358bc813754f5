import Bongus.Num.ExactDecimal

/-!
# Arithmetic of checked decimals

The operations of `execution_engine/src/exact_decimal.rs` on checked decimals and the two readers of
canonical texts of the order manager.
-/

set_option autoImplicit false
set_option relaxedAutoImplicit false

namespace Bongus.Num

namespace ExactDecimal

/-- `MAX`. -/
def maximum : ExactDecimal := ⟨2 ^ 127 - 1, 0⟩

def max (left right : ExactDecimal) : ExactDecimal := if left.cmp right = .gt then left else right

def min (left right : ExactDecimal) : ExactDecimal := if left.cmp right = .gt then right else left

def checked (units : ℤ) : Option ℤ := if fits 128 units then some units else none

/-- The units of two decimals at their common scale. -/
def alignedUnits (left right : ExactDecimal) : Option (ℤ × ℤ × ℕ) := do
  let scale := Nat.max left.scale right.scale
  let leftFactor ← pow10 (scale - left.scale)
  let leftUnits ← checkedMul left.units leftFactor
  let rightFactor ← pow10 (scale - right.scale)
  let rightUnits ← checkedMul right.units rightFactor
  return (leftUnits, rightUnits, scale)

def checkedAdd (left right : ExactDecimal) : Option ExactDecimal := do
  let (leftUnits, rightUnits, scale) ← left.alignedUnits right
  let units ← checked (leftUnits + rightUnits)
  return normalized units scale

def checkedSub (left right : ExactDecimal) : Option ExactDecimal := do
  let (leftUnits, rightUnits, scale) ← left.alignedUnits right
  let units ← checked (leftUnits - rightUnits)
  return normalized units scale

/-- The smallest positive increment that is a multiple of both. -/
def checkedCommonIncrement (left right : ExactDecimal) : Option ExactDecimal :=
  if left.units ≤ 0 ∨ right.units ≤ 0 then none
  else do
    let (leftUnits, rightUnits, scale) ← left.alignedUnits right
    let units ← checkedMul (leftUnits / Int.gcd leftUnits rightUnits) rightUnits
    return normalized units scale

def floorToIncrement (value increment : ExactDecimal) : Option ExactDecimal :=
  if value.units < 0 ∨ increment.units ≤ 0 then none
  else do
    let (valueUnits, incrementUnits, scale) ← value.alignedUnits increment
    let units ← checkedMul (valueUnits / incrementUnits) incrementUnits
    return normalized units scale

def formatToScale (d : ExactDecimal) (scale : ℕ) : Option String :=
  if scale < d.scale then none
  else do
    let factor ← pow10 (scale - d.scale)
    let units ← checkedMul d.units factor
    return renderUnits units scale

def exactAbs (value : ExactDecimal) : Option ExactDecimal :=
  if value.cmp zero = .lt then zero.checkedSub value else some value

/-- The decimal of a number, if it has at most 28 places and its digits fit. -/
def ofRat (number : ℚ) : Option ExactDecimal :=
  let scaled := number * 10 ^ maxParsedScale
  let decimal := normalized scaled.num maxParsedScale
  if scaled.den = 1 ∧ fits 128 decimal.units then some decimal else none

/-! ### Canonical texts -/

def canonicalSignedExact (raw : String) : Option ExactDecimal :=
  (fromStr raw).toOption.filter fun value ↦ value.display = raw

def canonicalExact (raw : String) : Option ExactDecimal :=
  (canonicalSignedExact raw).filter fun value ↦ value.cmp zero ≠ .lt

end ExactDecimal

end Bongus.Num
