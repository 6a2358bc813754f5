import Mathlib.Data.Rat.Lemmas
import Mathlib.Algebra.Order.Ring.Rat
import Mathlib.Algebra.BigOperators.Group.List.Basic

/-!
# Decimal numbers and rounding contexts

A decimal is a sign, a coefficient and a power of ten; its value is a rational. Arithmetic is done
in a context: the context rounds the exact result of each operation, or traps it. `exact` is the
context in which nothing is rounded, and the lemmas here compute every operation in it.
-/

set_option autoImplicit false
set_option relaxedAutoImplicit false

namespace Bongus.Lib.Decimals

/-- A finite decimal. Two decimals of the same value, such as `1` and `1.0`, are different texts. -/
structure Decimal where
  negative : Bool
  coefficient : ℕ
  exponent : ℤ
deriving DecidableEq, Repr

/-- The rational number a decimal denotes. -/
def Decimal.value (d : Decimal) : ℚ :=
  (if d.negative then -1 else 1) * d.coefficient * (10 : ℚ) ^ d.exponent

/-- The integer `n` as a decimal. -/
def Decimal.ofInt (n : ℤ) : Decimal := ⟨decide (n < 0), n.natAbs, 0⟩

/-- What a caller can pass where a number is expected: a truth value, a text or object that is no
finite decimal, or a decimal. -/
inductive Numeric where
  | boolean
  | malformed
  | decimal (value : Decimal)
deriving DecidableEq, Repr

/-- Reading a number: truth values are refused although the language would convert them. -/
def Numeric.read (name : String) : Numeric → Except String Decimal
  | .boolean => .error (name ++ " must be numeric")
  | .malformed => .error (name ++ " must be a finite decimal")
  | .decimal d => .ok d

theorem Numeric.read_eq_ok {name : String} {given : Numeric} {d : Decimal} :
    given.read name = .ok d ↔ given = .decimal d := by
  cases given <;> simp [Numeric.read]

/-- The number that is read, and zero where none is. -/
def Numeric.value : Numeric → ℚ
  | .boolean | .malformed => 0
  | .decimal d => d.value

/-- What a text can be read as: a finite decimal, or an infinity or a NaN. -/
inductive Number where
  | finite (value : Decimal)
  | special
deriving DecidableEq

/-- A rounding context. `round` takes the exact result of an operation to the result the context
gives, or to the signal it traps. -/
structure Context where
  round : ℚ → Except String ℚ

namespace Context

/-- The context that rounds nothing. -/
def exact : Context := ⟨.ok⟩

variable (context : Context)

def add (x y : ℚ) : Except String ℚ := context.round (x + y)

def sub (x y : ℚ) : Except String ℚ := context.round (x - y)

def mul (x y : ℚ) : Except String ℚ := context.round (x * y)

def div (x y : ℚ) : Except String ℚ :=
  if y = 0 then .error "DivisionByZero" else context.round (x / y)

def neg (x : ℚ) : Except String ℚ := context.round (-x)

def abs (x : ℚ) : Except String ℚ := context.round |x|

/-- A sum from left to right, rounded after each addition. -/
def sum (values : List ℚ) : Except String ℚ :=
  values.foldlM context.add 0

@[simp] theorem exact_add (x y : ℚ) : exact.add x y = .ok (x + y) := rfl

@[simp] theorem exact_sub (x y : ℚ) : exact.sub x y = .ok (x - y) := rfl

@[simp] theorem exact_mul (x y : ℚ) : exact.mul x y = .ok (x * y) := rfl

@[simp] theorem exact_neg (x : ℚ) : exact.neg x = .ok (-x) := rfl

@[simp] theorem exact_abs (x : ℚ) : exact.abs x = .ok |x| := rfl

@[simp] theorem exact_sum (values : List ℚ) : exact.sum values = .ok values.sum := by
  have hfold : ∀ (rest : List ℚ) (start : ℚ),
      rest.foldlM exact.add start = .ok (start + rest.sum) := by
    intro rest
    induction rest with
    | nil => intro start; simp [pure, Except.pure]
    | cons x rest ih =>
      intro start
      rw [List.foldlM_cons, exact_add]
      exact (ih (start + x)).trans (by rw [List.sum_cons, add_assoc])
  rw [Context.sum, hfold values 0, zero_add]

end Context

end Bongus.Lib.Decimals
