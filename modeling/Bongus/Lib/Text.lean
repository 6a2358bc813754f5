import Mathlib.Data.List.DropRight

/-!
# Text

Trimming of texts. The two languages of a system can disagree on what a blank is, so a trim takes
its notion of blank as a parameter: `unicodeBlank` is the `White_Space` property of Unicode and
`separatorBlank` adds the four information separators. A text is the pieces between its separators
put together again (`pieces_eq_cons`).
-/

set_option autoImplicit false
set_option relaxedAutoImplicit false

namespace Bongus.Lib.Text

/-- The characters with the Unicode property `White_Space`. -/
def unicodeBlank (c : Char) : Bool :=
  (9 ≤ c.toNat && c.toNat ≤ 13) || c.toNat == 0x20 || c.toNat == 0x85 || c.toNat == 0xA0 ||
    c.toNat == 0x1680 || (0x2000 ≤ c.toNat && c.toNat ≤ 0x200A) || c.toNat == 0x2028 ||
    c.toNat == 0x2029 || c.toNat == 0x202F || c.toNat == 0x205F || c.toNat == 0x3000

/-- `unicodeBlank` and the information separators U+001C to U+001F. -/
def separatorBlank (c : Char) : Bool :=
  unicodeBlank c || (0x1C ≤ c.toNat && c.toNat ≤ 0x1F)

/-- A text without the blanks at its two ends. -/
def trim (blank : Char → Bool) (text : String) : String :=
  String.ofList ((text.toList.dropWhile blank).rdropWhile blank)

/-- A text that is trimmed stays as it is. -/
theorem trim_trim (blank : Char → Bool) (text : String) :
    trim blank (trim blank text) = trim blank text := by
  unfold trim
  rw [String.toList_ofList]
  set body := text.toList.dropWhile blank with hbody
  -- What is left begins as the text did after its first blanks were dropped.
  have hstart : (body.rdropWhile blank).dropWhile blank = body.rdropWhile blank := by
    rw [List.dropWhile_eq_self_iff]
    intro hpos hblank
    have hbegins : body.rdropWhile blank <+: body := List.rdropWhile_prefix blank _
    have hself : body.dropWhile blank = body := List.dropWhile_idempotent blank _
    rw [List.dropWhile_eq_self_iff] at hself
    refine hself (hpos.trans_le hbegins.length_le) ?_
    rwa [← hbegins.getElem hpos]
  rw [hstart, List.rdropWhile_idempotent]

/-! ### Upper case -/

theorem toUpper_toUpper_char (c : Char) : c.toUpper.toUpper = c.toUpper := by
  by_cases hlower : 'a'.val ≤ c.val ∧ c.val ≤ 'z'.val
  · have hupper : c.toUpper.val = c.val + ('A'.val - 'a'.val) := by
      unfold Char.toUpper
      rw [dif_pos hlower]
    have hnot : ¬ ('a'.val ≤ c.toUpper.val ∧ c.toUpper.val ≤ 'z'.val) := by
      have hfirst := UInt32.le_iff_toNat_le.mp hlower.1
      have hlast := UInt32.le_iff_toNat_le.mp hlower.2
      have ha : ('a'.val).toNat = 97 := by decide
      have hz : ('z'.val).toNat = 122 := by decide
      have hshift : ('A'.val - 'a'.val).toNat = 2 ^ 32 - 32 := by decide
      rw [ha] at hfirst
      rw [hz] at hlast
      rw [hupper, not_and_or]
      left
      rw [UInt32.not_le, UInt32.lt_iff_toNat_lt, UInt32.toNat_add, hshift, ha]
      omega
    exact dif_neg hnot
  · have hsame : c.toUpper = c := dif_neg hlower
    rw [hsame]
    exact hsame

theorem toUpper_toUpper (text : String) : text.toUpper.toUpper = text.toUpper := by
  unfold String.toUpper
  apply String.toList_inj.mp
  rw [String.toList_map, String.toList_map, List.map_map]
  exact List.map_congr_left fun c _ ↦ toUpper_toUpper_char c

/-! ### Blanks -/

/-- A text that consists of blanks only. -/
def isBlank (blank : Char → Bool) (text : String) : Bool :=
  trim blank text = ""

/-- The pieces of a text between separators, one more than there are separators. -/
def pieces (separator : Char → Bool) : List Char → List (List Char)
  | [] => [[]]
  | c :: rest =>
    if separator c then [] :: pieces separator rest
    else
      match pieces separator rest with
      | [] => [[c]]
      | first :: more => (c :: first) :: more

theorem pieces_ne_nil (separator : Char → Bool) (text : List Char) :
    pieces separator text ≠ [] := by
  cases text with
  | nil => exact List.cons_ne_nil _ _
  | cons c rest =>
    rw [pieces]
    split
    · exact List.cons_ne_nil _ _
    split <;> exact List.cons_ne_nil _ _

/-- The first piece of a text is the whole of it or ends at a separator. -/
theorem pieces_eq_cons {separator : Char → Bool} {text first : List Char} {more : List (List Char)}
    (hpieces : pieces separator text = first :: more) :
    more = [] ∧ text = first ∨
      ∃ c rest, separator c = true ∧ text = first ++ c :: rest ∧ pieces separator rest = more := by
  induction text generalizing first with
  | nil =>
    cases hpieces
    exact Or.inl ⟨rfl, rfl⟩
  | cons c rest ih =>
    rw [pieces] at hpieces
    split at hpieces
    · rename_i hseparator
      cases hpieces
      exact Or.inr ⟨c, rest, hseparator, rfl, rfl⟩
    split at hpieces
    · rename_i hnil
      exact absurd hnil (pieces_ne_nil separator rest)
    · rename_i start others hrest
      cases hpieces
      rcases ih hrest with ⟨hmore, htext⟩ | ⟨c', rest', hseparator, htext, hothers⟩
      · exact Or.inl ⟨hmore, by rw [htext]⟩
      · exact Or.inr ⟨c', rest', hseparator, by rw [htext]; rfl, hothers⟩

theorem pieces_eq_singleton {separator : Char → Bool} {text only : List Char}
    (hpieces : pieces separator text = [only]) : text = only := by
  rcases pieces_eq_cons hpieces with ⟨-, htext⟩ | ⟨c, rest, -, -, hrest⟩
  · exact htext
  · exact absurd hrest (pieces_ne_nil separator rest)

theorem pieces_eq_pair {separator : Char → Bool} {text first second : List Char}
    (hpieces : pieces separator text = [first, second]) :
    ∃ c, separator c = true ∧ text = first ++ c :: second := by
  rcases pieces_eq_cons hpieces with ⟨hnone, -⟩ | ⟨c, rest, hseparator, htext, hrest⟩
  · cases hnone
  · rw [pieces_eq_singleton hrest] at htext
    exact ⟨c, hseparator, htext⟩

end Bongus.Lib.Text
