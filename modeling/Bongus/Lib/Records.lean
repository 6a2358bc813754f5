import Bongus.Lib.Fallible
import Bongus.Lib.Float64

/-!
# Records of a dynamically typed language

A record maps names to values whose types are only known when they are read. A reader takes one
value out of a record or fails with a reason, and a table of readers builds a new record field by
field (`readFields`). What the table has under a name is what the new record holds there
(`lookup_readFields`).
-/

set_option autoImplicit false
set_option relaxedAutoImplicit false

namespace Bongus.Lib.Records

open Fallible Float64

inductive Value where
  | none
  | bool (value : Bool)
  | int (value : ℤ)
  | float (value : F64)
  | text (value : String)
  | other
deriving DecidableEq

/-- The names of a record are distinct. -/
abbrev Record := List (String × Value)

def names (record : Record) : List String := record.map Prod.fst

/-- The value under a name, `none` if there is no such name. -/
def field (record : Record) (name : String) : Value := (record.lookup name).getD .none

abbrev Reader := Record → Except String Value

def readFields : List (String × Reader) → Record → Except String Record
  | [], _ => .ok []
  | entry :: more, record => do
    let value ← entry.2 record
    let rest ← readFields more record
    return (entry.1, value) :: rest

theorem names_readFields {table : List (String × Reader)} {record body : Record}
    (hread : readFields table record = .ok body) : names body = table.map Prod.fst := by
  induction table generalizing body with
  | nil =>
    obtain rfl : [] = body := by simpa [readFields] using hread
    rfl
  | cons entry more ih =>
    simp only [readFields, bind_eq_ok, pure_eq_ok] at hread
    obtain ⟨value, -, rest, hrest, rfl⟩ := hread
    simp [names, ← ih hrest]

/-- A field of the new record is what the table's reader for it gave. -/
theorem lookup_readFields {table : List (String × Reader)} {record body : Record} {name : String}
    {read : Reader} (hread : readFields table record = .ok body)
    (hname : table.lookup name = some read) :
    ∃ value, read record = .ok value ∧ body.lookup name = some value := by
  induction table generalizing body with
  | nil => simp at hname
  | cons entry more ih =>
    simp only [readFields, bind_eq_ok, pure_eq_ok] at hread
    obtain ⟨value, hvalue, rest, hrest, rfl⟩ := hread
    obtain ⟨key, reader⟩ := entry
    by_cases hkey : name = key
    · subst hkey
      obtain rfl : reader = read := by simpa using hname
      exact ⟨value, hvalue, by simp⟩
    · have hskip : (name == key) = false := by simpa using hkey
      simp only [List.lookup_cons, hskip] at hname ⊢
      exact ih hrest hname

theorem lookup_eq_none {record : Record} {name : String} (hname : name ∉ names record) :
    record.lookup name = none := by
  rw [List.lookup_eq_none_iff]
  intro entry hentry
  have hne : name ≠ entry.1 := fun h ↦ hname (h ▸ List.mem_map_of_mem hentry)
  simpa using hne

/-- A field that the first part of a record has. -/
theorem field_append_left {first second : Record} {name : String} {value : Value}
    (hvalue : first.lookup name = some value) : field (first ++ second) name = value := by
  simp [field, List.lookup_append, hvalue]

/-- A field that the first part of a record does not have. -/
theorem field_append_right {first second : Record} {name : String} (hname : name ∉ names first) :
    field (first ++ second) name = field second name := by
  simp [field, List.lookup_append, lookup_eq_none hname]

end Bongus.Lib.Records
