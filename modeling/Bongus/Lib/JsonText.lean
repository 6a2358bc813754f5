import Mathlib.Data.List.TakeWhile
import Mathlib.Tactic.IntervalCases
import Bongus.Lib.LineLog

/-!
# Flat JSON objects as bytes

The compact text of a JSON object whose values are strings, integers and truth values: strings in
UTF-8 with quotes, backslashes and control characters escaped, integers in decimal, no blanks. The text of an
object ends where the object ends (`object_unambiguous`): no text is the beginning of another one,
and the fields can be read off it. It has no newline (`newline_notMem_object`), so that it can stand
on a line of a log (`exactParser`).
-/

set_option autoImplicit false
set_option relaxedAutoImplicit false

namespace Bongus.Lib.JsonText

open LineLog

/-! ### Strings -/

def utf8 (text : String) : Bytes := text.toByteArray.data.toList

theorem utf8_injective : Function.Injective utf8 := fun _ _ h ↦
  String.toByteArray_inj.mp (ByteArray.ext (Array.toList_inj.mp h))

def quote : UInt8 := 34

def backslash : UInt8 := 92

/-- A hexadecimal digit, lower case. -/
def hexDigit (value : UInt8) : UInt8 := if value < 10 then 48 + value else 87 + value

def escape (byte : UInt8) : Bytes :=
  if byte = quote then [backslash, quote]
  else if byte = backslash then [backslash, backslash]
  else if byte = 8 then [backslash, 98]
  else if byte = 9 then [backslash, 116]
  else if byte = 10 then [backslash, 110]
  else if byte = 12 then [backslash, 102]
  else if byte = 13 then [backslash, 114]
  else if byte < 32 then [backslash, 117, 48, 48, hexDigit (byte / 16), hexDigit (byte % 16)]
  else [byte]

def quoted (text : String) : Bytes := quote :: (utf8 text).flatMap escape ++ [quote]

def hexValue (digit : UInt8) : UInt8 := if digit < 58 then digit - 48 else digit - 87

/-- Reading one escaped byte off a text. -/
def unescape : Bytes → Option (UInt8 × Bytes)
  | 92 :: 34 :: rest => some (34, rest)
  | 92 :: 92 :: rest => some (92, rest)
  | 92 :: 98 :: rest => some (8, rest)
  | 92 :: 116 :: rest => some (9, rest)
  | 92 :: 110 :: rest => some (10, rest)
  | 92 :: 102 :: rest => some (12, rest)
  | 92 :: 114 :: rest => some (13, rest)
  | 92 :: 117 :: 48 :: 48 :: high :: low :: rest =>
    some (hexValue high * 16 + hexValue low, rest)
  | 34 :: _ => none
  | byte :: rest => some (byte, rest)
  | [] => none

theorem hexValue_hexDigit {byte : UInt8} (hbyte : byte < 32) :
    hexValue (hexDigit (byte / 16)) * 16 + hexValue (hexDigit (byte % 16)) = byte := by
  have hcode : byte.toNat < 32 := UInt8.lt_iff_toNat_lt.mp hbyte
  rw [← UInt8.ofNat_toNat (x := byte)]
  generalize byte.toNat = code at hcode
  interval_cases code <;> decide

theorem unescape_escape (byte : UInt8) (rest : Bytes) :
    unescape (escape byte ++ rest) = some (byte, rest) := by
  unfold escape
  split_ifs with h34 h92 h8 h9 h10 h12 h13 hcontrol
  · simp [unescape, quote, backslash, h34]
  · simp [unescape, backslash, h92]
  · simp [unescape, backslash, h8]
  · simp [unescape, backslash, h9]
  · simp [unescape, backslash, h10]
  · simp [unescape, backslash, h12]
  · simp [unescape, backslash, h13]
  · simp [unescape, backslash, hexValue_hexDigit hcontrol]
  · unfold quote at h34
    unfold backslash at h92
    simp [unescape, h92]

theorem unescape_quote (rest : Bytes) : unescape (quote :: rest) = none := by
  simp [unescape, quote]

/-- The end of an escaped text is found. -/
theorem escaped_unambiguous {first second : Bytes} {rest rest' : Bytes}
    (h : first.flatMap escape ++ quote :: rest = second.flatMap escape ++ quote :: rest') :
    first = second ∧ rest = rest' := by
  induction first generalizing second with
  | nil =>
    cases second with
    | nil => simpa using h
    | cons byte more =>
      have hread := congrArg unescape h
      simp only [List.flatMap_nil, List.nil_append, List.flatMap_cons, List.append_assoc,
        unescape_quote, unescape_escape, reduceCtorEq] at hread
  | cons byte more ih =>
    have hread := congrArg unescape h
    cases second with
    | nil =>
      simp only [List.flatMap_nil, List.nil_append, List.flatMap_cons, List.append_assoc,
        unescape_quote, unescape_escape, reduceCtorEq] at hread
    | cons byte' more' =>
      simp only [List.flatMap_cons, List.append_assoc, unescape_escape, Option.some.injEq,
        Prod.mk.injEq] at hread
      obtain ⟨rfl, htail⟩ := hread
      obtain ⟨rfl, hrest⟩ := ih htail
      exact ⟨rfl, hrest⟩

theorem quoted_unambiguous {first second : String} {rest rest' : Bytes}
    (h : quoted first ++ rest = quoted second ++ rest') : first = second ∧ rest = rest' := by
  simp only [quoted, List.cons_append, List.append_assoc, List.cons.injEq, true_and,
    List.nil_append] at h
  obtain ⟨hbytes, hrest⟩ := escaped_unambiguous h
  exact ⟨utf8_injective hbytes, hrest⟩

/-! ### Integers -/

def digits (n : ℕ) : Bytes := (Nat.toDigits 10 n).map fun char ↦ UInt8.ofNat char.toNat

def number : ℤ → Bytes
  | .ofNat n => digits n
  | .negSucc n => 45 :: digits (n + 1)

/-- The bytes of a number: digits and the minus sign. -/
def isNumberByte (byte : UInt8) : Bool := byte = 45 || (48 ≤ byte && byte ≤ 57)

private theorem digit_toNat {char : Char} {n : ℕ} (hchar : char ∈ Nat.toDigits 10 n) :
    48 ≤ char.toNat ∧ char.toNat ≤ 57 := by
  have hdigit := Nat.isDigit_of_mem_toDigits (by decide) (by decide) hchar
  simp only [Char.isDigit, Bool.and_eq_true, decide_eq_true_eq] at hdigit
  exact ⟨UInt32.le_iff_toNat_le.mp hdigit.1, UInt32.le_iff_toNat_le.mp hdigit.2⟩

theorem isNumberByte_of_mem_digits {n : ℕ} {byte : UInt8} (hbyte : byte ∈ digits n) :
    isNumberByte byte ∧ byte ≠ 45 := by
  obtain ⟨char, hchar, rfl⟩ := List.mem_map.mp hbyte
  obtain ⟨hlow, hhigh⟩ := digit_toNat hchar
  generalize char.toNat = code at hlow hhigh
  interval_cases code <;> decide

theorem map_digits (n : ℕ) :
    (digits n).map (fun byte ↦ Char.ofNat byte.toNat) = Nat.toDigits 10 n := by
  rw [digits, List.map_map]
  refine (List.map_congr_left fun char hchar ↦ ?_).trans (List.map_id _)
  have hhigh := (digit_toNat hchar).2
  rw [Function.comp_apply, UInt8.toNat_ofNat', Nat.mod_eq_of_lt (by omega), Char.ofNat_toNat]
  rfl

theorem digits_injective : Function.Injective digits := by
  intro m n h
  rw [← Nat.ofDigitChars_ten_toDigits (n := m), ← map_digits, h, map_digits,
    Nat.ofDigitChars_ten_toDigits]

theorem isNumberByte_of_mem_number {i : ℤ} {byte : UInt8} (hbyte : byte ∈ number i) :
    isNumberByte byte := by
  cases i with
  | ofNat n => exact (isNumberByte_of_mem_digits hbyte).1
  | negSucc n =>
    rcases List.mem_cons.mp hbyte with rfl | hdigits
    · rfl
    · exact (isNumberByte_of_mem_digits hdigits).1

theorem number_injective : Function.Injective number := by
  -- Only a negative number has a minus sign, and it has one in front.
  have hsign : ∀ m n, digits m ≠ 45 :: digits n := fun m n h ↦
    (isNumberByte_of_mem_digits (h ▸ List.mem_cons_self : 45 ∈ digits m)).2 rfl
  intro i j h
  cases i with
  | ofNat m =>
    cases j with
    | ofNat n => rw [digits_injective h]
    | negSucc n => exact absurd h (hsign _ _)
  | negSucc m =>
    cases j with
    | ofNat n => exact absurd h.symm (hsign _ _)
    | negSucc n =>
      have hdigits := digits_injective (List.cons.inj h).2
      rw [Nat.succ.inj hdigits]

/-- A number ends at the first byte that is none of a number's. -/
theorem number_unambiguous {i j : ℤ} {stop stop' : UInt8} {rest rest' : Bytes}
    (hstop : isNumberByte stop = false) (hstop' : isNumberByte stop' = false)
    (h : number i ++ stop :: rest = number j ++ stop' :: rest') :
    i = j ∧ stop :: rest = stop' :: rest' := by
  have htake := congrArg (List.takeWhile isNumberByte) h
  rw [List.takeWhile_append_of_pos fun byte hbyte ↦ isNumberByte_of_mem_number hbyte,
    List.takeWhile_append_of_pos fun byte hbyte ↦ isNumberByte_of_mem_number hbyte,
    List.takeWhile_cons_of_neg (by simp [hstop]), List.takeWhile_cons_of_neg (by simp [hstop']),
    List.append_nil, List.append_nil] at htake
  have hij := number_injective htake
  subst hij
  exact ⟨rfl, List.append_cancel_left h⟩

/-! ### Objects -/

inductive Scalar where
  | text (value : String)
  | number (value : ℤ)
  | flag (value : Bool)
deriving DecidableEq, Repr

def truth (value : Bool) : Bytes := utf8 (if value then "true" else "false")

def Scalar.write : Scalar → Bytes
  | text value => quoted value
  | number value => JsonText.number value
  | flag value => truth value

abbrev Field := String × Scalar

/-- A name, a colon, and the value. -/
def Field.write (field : Field) : Bytes := quoted field.1 ++ 58 :: field.2.write

/-- What follows a field: a comma and the next one, or the closing brace. -/
def moreFields : List Field → Bytes
  | [] => [125]
  | field :: rest => 44 :: (Field.write field ++ moreFields rest)

def object : List Field → Bytes
  | [] => [123, 125]
  | field :: rest => 123 :: (Field.write field ++ moreFields rest)

/-- No field is followed by a byte of a number. -/
theorem moreFields_eq_cons (fields : List Field) :
    ∃ stop rest, moreFields fields = stop :: rest ∧ isNumberByte stop = false := by
  cases fields with
  | nil => exact ⟨125, [], rfl, by decide⟩
  | cons field rest => exact ⟨44, _, rfl, by decide⟩

theorem number_eq_cons (i : ℤ) : ∃ byte rest, number i = byte :: rest ∧ isNumberByte byte := by
  have hne : number i ≠ [] := by
    cases i with
    | ofNat n => simp [number, digits, Nat.toDigits_ne_nil]
    | negSucc n => simp [number]
  obtain ⟨byte, rest, hcons⟩ := List.exists_cons_of_ne_nil hne
  exact ⟨byte, rest, hcons,
    isNumberByte_of_mem_number (hcons ▸ List.mem_cons_self : byte ∈ number i)⟩

/-- The first byte shows the kind of a value. -/
theorem write_eq_cons (scalar : Scalar) : ∃ byte rest, scalar.write = byte :: rest ∧
    match scalar with
    | .text _ => byte = quote
    | .number _ => isNumberByte byte = true
    | .flag value => byte = if value then 116 else 102 := by
  cases scalar with
  | text value => exact ⟨_, _, rfl, rfl⟩
  | number value => exact number_eq_cons value
  | flag value =>
    cases value with
    | false => exact ⟨_, _, rfl, by decide⟩
    | true => exact ⟨_, _, rfl, by decide⟩

theorem scalar_unambiguous {first second : Scalar} {stop stop' : UInt8} {rest rest' : Bytes}
    (hstop : isNumberByte stop = false) (hstop' : isNumberByte stop' = false)
    (h : first.write ++ stop :: rest = second.write ++ stop' :: rest') :
    first = second ∧ stop :: rest = stop' :: rest' := by
  obtain ⟨byte, more, hfirst, hkind⟩ := write_eq_cons first
  obtain ⟨byte', more', hsecond, hkind'⟩ := write_eq_cons second
  have hbyte : byte = byte' := by
    rw [hfirst, hsecond, List.cons_append, List.cons_append] at h
    exact (List.cons.inj h).1
  subst hbyte
  cases first with
  | text value =>
    cases second with
    | text value' =>
      obtain ⟨rfl, hrest⟩ := quoted_unambiguous h
      exact ⟨rfl, hrest⟩
    | number value' => exact absurd (hkind ▸ hkind' : isNumberByte quote = true) (by decide)
    | flag value' =>
      rw [hkind] at hkind'
      cases value' <;> exact absurd hkind' (by decide)
  | number value =>
    cases second with
    | text value' => exact absurd (hkind' ▸ hkind : isNumberByte quote = true) (by decide)
    | number value' =>
      obtain ⟨rfl, hrest⟩ := number_unambiguous hstop hstop' h
      exact ⟨rfl, hrest⟩
    | flag value' =>
      rw [hkind'] at hkind
      dsimp only at hkind
      cases value' <;> exact absurd hkind (by decide)
  | flag value =>
    cases second with
    | text value' =>
      rw [hkind'] at hkind
      cases value <;> exact absurd hkind (by decide)
    | number value' =>
      rw [hkind] at hkind'
      dsimp only at hkind'
      cases value <;> exact absurd hkind' (by decide)
    | flag value' =>
      rw [hkind] at hkind'
      have hvalue : value = value' := by
        cases value <;> cases value' <;> first | rfl | exact absurd hkind' (by decide)
      subst hvalue
      exact ⟨rfl, List.append_cancel_left h⟩

theorem field_unambiguous {first second : Field} {more more' : List Field} {rest rest' : Bytes}
    (h : Field.write first ++ (moreFields more ++ rest) =
      Field.write second ++ (moreFields more' ++ rest')) :
    first = second ∧ moreFields more ++ rest = moreFields more' ++ rest' := by
  obtain ⟨stop, tail, hmore, hstop⟩ := moreFields_eq_cons more
  obtain ⟨stop', tail', hmore', hstop'⟩ := moreFields_eq_cons more'
  simp only [Field.write, hmore, hmore', List.append_assoc, List.cons_append] at h ⊢
  obtain ⟨hname, hvalue⟩ := quoted_unambiguous h
  obtain ⟨hscalar, hrest⟩ := scalar_unambiguous hstop hstop' (List.cons.inj hvalue).2
  exact ⟨Prod.ext hname hscalar, hrest⟩

theorem moreFields_unambiguous {first second : List Field} {rest rest' : Bytes}
    (h : moreFields first ++ rest = moreFields second ++ rest') :
    first = second ∧ rest = rest' := by
  induction first generalizing second with
  | nil =>
    cases second with
    | nil => simpa [moreFields] using h
    | cons field more => simp [moreFields] at h
  | cons field more ih =>
    cases second with
    | nil => simp [moreFields] at h
    | cons field' more' =>
      simp only [moreFields, List.cons_append, List.cons.injEq, true_and, List.append_assoc] at h
      obtain ⟨rfl, hmore⟩ := field_unambiguous h
      obtain ⟨rfl, hrest⟩ := ih hmore
      exact ⟨rfl, hrest⟩

/-- A field does not begin with a closing brace. -/
private theorem write_ne_close (field : Field) (rest rest' : Bytes) :
    Field.write field ++ rest ≠ 125 :: rest' := by
  simp [Field.write, quoted, quote]

/-- The text of an object shows its fields and where it ends. -/
theorem object_unambiguous {first second : List Field} {rest rest' : Bytes}
    (h : object first ++ rest = object second ++ rest') : first = second ∧ rest = rest' := by
  cases first with
  | nil =>
    cases second with
    | nil => simpa [object] using h
    | cons field more =>
      simp only [object, List.cons_append, List.cons.injEq, true_and, List.append_assoc] at h
      exact absurd h.symm (write_ne_close _ _ _)
  | cons field more =>
    cases second with
    | nil =>
      simp only [object, List.cons_append, List.cons.injEq, true_and, List.append_assoc] at h
      exact absurd h (write_ne_close _ _ _)
    | cons field' more' =>
      simp only [object, List.cons_append, List.cons.injEq, true_and, List.append_assoc] at h
      obtain ⟨rfl, hmore⟩ := field_unambiguous h
      obtain ⟨rfl, hrest⟩ := moreFields_unambiguous hmore
      exact ⟨rfl, hrest⟩

/-! ### Objects on lines -/

theorem newline_notMem_escape (byte : UInt8) : newline ∉ escape byte := by
  unfold escape newline
  split_ifs with h34 h92 h8 h9 h10 h12 h13 hcontrol
  all_goals try decide
  · have hcode : byte.toNat < 32 := UInt8.lt_iff_toNat_lt.mp hcontrol
    rw [← UInt8.ofNat_toNat (x := byte)]
    generalize byte.toNat = code at hcode
    interval_cases code <;> decide
  · rw [List.mem_singleton]
    exact fun h ↦ h10 h.symm

theorem newline_notMem_quoted (text : String) : newline ∉ quoted text := by
  have hquote : newline ≠ quote := by decide
  simp only [quoted, List.cons_append, List.mem_cons, List.mem_append, List.mem_flatMap, hquote,
    false_or, List.not_mem_nil, or_false]
  rintro ⟨byte, -, hbyte⟩
  exact newline_notMem_escape byte hbyte

theorem newline_notMem_write (field : Field) : newline ∉ Field.write field := by
  have hcolon : newline ≠ 58 := by decide
  obtain ⟨name, value⟩ := field
  simp only [Field.write, List.mem_append, List.mem_cons, hcolon, false_or, not_or]
  refine ⟨newline_notMem_quoted name, ?_⟩
  cases value with
  | text value => exact newline_notMem_quoted value
  | number value => exact fun h ↦ absurd (isNumberByte_of_mem_number h) (by decide)
  | flag value => cases value <;> decide

theorem newline_notMem_moreFields (fields : List Field) : newline ∉ moreFields fields := by
  induction fields with
  | nil => decide
  | cons field rest ih =>
    have hcomma : newline ≠ 44 := by decide
    simp only [moreFields, List.mem_cons, List.mem_append, hcomma, false_or, not_or]
    exact ⟨newline_notMem_write field, ih⟩

theorem newline_notMem_object (fields : List Field) : newline ∉ object fields := by
  cases fields with
  | nil => decide
  | cons field rest =>
    have hbrace : newline ≠ 123 := by decide
    simp only [object, List.mem_cons, List.mem_append, hbrace, false_or, not_or]
    exact ⟨newline_notMem_write field, newline_notMem_moreFields rest⟩

theorem object_ne_nil (fields : List Field) : object fields ≠ [] := by
  cases fields <;> simp [object]

/-- The parser that accepts exactly the texts of records, for records that their fields determine. -/
noncomputable def exactParser {Record : Type} (fields : Record → List Field)
    (hfields : Function.Injective fields) : LineParser fun record ↦ object (fields record) :=
  have hinjective : Function.Injective fun record ↦ object (fields record) := fun first second h ↦
    hfields (object_unambiguous (congrArg (· ++ []) h)).1
  -- No text of a record continues the text of another one.
  have hends : ∀ record other line, object (fields record) = object (fields other) ++ line →
      line = [] := fun record other line h ↦
    (object_unambiguous ((List.append_nil _).trans h)).2.symm
  open Classical in
  { parse := fun line ↦
      if line = [] then .ok none
      else if h : ∃ record, object (fields record) = line then .ok (some h.choose)
      else .error "expected value"
    parse_nil := if_pos rfl
    parse_encode := fun record ↦ by
      have h : ∃ other, object (fields other) = object (fields record) := ⟨record, rfl⟩
      rw [if_neg (object_ne_nil _), dif_pos h, hinjective h.choose_spec]
    parse_torn := fun record line hshort hne hpart ↦ by
      have hno : ¬ ∃ other, object (fields other) = line := by
        rintro ⟨other, rfl⟩
        obtain ⟨missing, hmissing⟩ := hshort
        have hnil := hends record other missing hmissing.symm
        rw [hnil, List.append_nil] at hmissing
        exact hpart hmissing
      exact ⟨_, by rw [if_neg hne, dif_neg hno]⟩
    parse_glued := fun record other line _ hne ↦ by
      have hno : ¬ ∃ glued, object (fields glued) = object (fields record) ++ line := by
        rintro ⟨glued, hglued⟩
        exact hne (hends glued record line hglued)
      exact ⟨_, by rw [if_neg (by simp [hne]), dif_neg hno]⟩
    newline_free := fun record ↦ newline_notMem_object _
    encode_ne_nil := fun record ↦ object_ne_nil _ }

end Bongus.Lib.JsonText
