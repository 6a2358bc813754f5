import Bongus.Lib.Float64

/-!
# JSON documents

A document as a program that reads JSON holds it: integers and doubles apart, lists, and
dictionaries with the entries in the order of their names. Documents can be compared (`decEq`).
`get` looks a name up, and `truthy` is what the program takes for true.
-/

set_option autoImplicit false
set_option relaxedAutoImplicit false

namespace Bongus.Lib.Documents

open Float64

inductive Json where
  | null
  | bool (value : Bool)
  | int (value : ℤ)
  | float (value : F64)
  | text (value : String)
  | list (items : List Json)
  | dict (entries : List (String × Json))

namespace Json

mutual

def decEq : (first second : Json) → Decidable (first = second)
  | .null, .null => isTrue rfl
  | .bool first, .bool second => decidable_of_iff (first = second) (by simp)
  | .int first, .int second => decidable_of_iff (first = second) (by simp)
  | .float first, .float second => decidable_of_iff (first = second) (by simp)
  | .text first, .text second => decidable_of_iff (first = second) (by simp)
  | .list first, .list second =>
    have := decEqItems first second
    decidable_of_iff (first = second) (by simp)
  | .dict first, .dict second =>
    have := decEqEntries first second
    decidable_of_iff (first = second) (by simp)
  | .null, .bool _ | .null, .int _ | .null, .float _ | .null, .text _ | .null, .list _
  | .null, .dict _ | .bool _, .null | .bool _, .int _ | .bool _, .float _ | .bool _, .text _
  | .bool _, .list _ | .bool _, .dict _ | .int _, .null | .int _, .bool _ | .int _, .float _
  | .int _, .text _ | .int _, .list _ | .int _, .dict _ | .float _, .null | .float _, .bool _
  | .float _, .int _ | .float _, .text _ | .float _, .list _ | .float _, .dict _
  | .text _, .null | .text _, .bool _ | .text _, .int _ | .text _, .float _ | .text _, .list _
  | .text _, .dict _ | .list _, .null | .list _, .bool _ | .list _, .int _ | .list _, .float _
  | .list _, .text _ | .list _, .dict _ | .dict _, .null | .dict _, .bool _ | .dict _, .int _
  | .dict _, .float _ | .dict _, .text _ | .dict _, .list _ => isFalse nofun

def decEqItems : (first second : List Json) → Decidable (first = second)
  | [], [] => isTrue rfl
  | [], _ :: _ | _ :: _, [] => isFalse nofun
  | first :: rest, second :: more =>
    have := decEq first second
    have := decEqItems rest more
    decidable_of_iff (first = second ∧ rest = more) (by simp)

def decEqEntries : (first second : List (String × Json)) → Decidable (first = second)
  | [], [] => isTrue rfl
  | [], _ :: _ | _ :: _, [] => isFalse nofun
  | (name, first) :: rest, (other, second) :: more =>
    have := decEq first second
    have := decEqEntries rest more
    decidable_of_iff ((name = other ∧ first = second) ∧ rest = more) (by simp)

end

instance : DecidableEq Json := decEq

/-- The value under a name, `null` if there is none. -/
def get (entries : List (String × Json)) (name : String) : Json :=
  (entries.lookup name).getD .null

def truthy : Json → Bool
  | .null => false
  | .bool value => value
  | .int value => value ≠ 0
  | .float value => !value.isZero
  | .text value => value ≠ ""
  | .list items => !items.isEmpty
  | .dict entries => !entries.isEmpty

end Json

end Bongus.Lib.Documents
