import Mathlib.Data.List.Basic
import Mathlib.Data.Nat.Digits.Defs
import Mathlib.Tactic.NormNum

/-!
# Framed texts

A code is framed if its words can be read off the front of a text: two texts that start with words
are equal only if the words and the rests are (`Framed`). Words of one length, words that a sign
ends which they do not have, and texts behind their byte size are framed.
-/

set_option autoImplicit false
set_option relaxedAutoImplicit false

namespace Bongus.Lib.Framing

variable {α β : Type}

/-- The first word of a text and what follows it are determined. -/
def Framed (encode : α → List Char) : Prop :=
  ∀ x y rest others, encode x ++ rest = encode y ++ others → x = y ∧ rest = others

/-- Words behind one text are as framed as the words. -/
theorem Framed.cons {encode : α → List Char} (hframed : Framed encode) (tag : Char) :
    Framed fun x ↦ tag :: encode x := by
  intro x y rest others hsame
  exact hframed x y rest others (List.cons.inj hsame).2

/-- A word before a text that does not depend on it. -/
theorem Framed.append {encode : α → List Char} (hframed : Framed encode) (tail : List Char) :
    Framed fun x ↦ encode x ++ tail := by
  intro x y rest others hsame
  rw [List.append_assoc, List.append_assoc] at hsame
  obtain ⟨rfl, htails⟩ := hframed x y _ _ hsame
  exact ⟨rfl, List.append_cancel_left htails⟩

theorem eq_of_append_cons {sign : Char} {first second rest others : List Char}
    (hfirst : sign ∉ first) (hsecond : sign ∉ second)
    (hsame : first ++ sign :: rest = second ++ sign :: others) :
    first = second ∧ rest = others := by
  induction first generalizing second with
  | nil =>
    cases second with
    | nil => exact ⟨rfl, (List.cons.inj hsame).2⟩
    | cons c second => exact absurd (List.cons.inj hsame).1 (List.ne_of_not_mem_cons hsecond)
  | cons c first ih =>
    cases second with
    | nil => exact absurd (List.cons.inj hsame).1.symm (List.ne_of_not_mem_cons hfirst)
    | cons d second =>
      obtain ⟨rfl, htail⟩ := List.cons.inj hsame
      obtain ⟨rfl, hrest⟩ := ih (List.not_mem_of_not_mem_cons hfirst)
        (List.not_mem_of_not_mem_cons hsecond) htail
      exact ⟨rfl, hrest⟩

theorem framed_of_sign {encode : α → List Char} (hinjective : Function.Injective encode)
    {sign : Char} (hsign : ∀ x, sign ∉ encode x) : Framed fun x ↦ encode x ++ [sign] := by
  intro x y rest others hsame
  rw [List.append_assoc, List.append_assoc] at hsame
  obtain ⟨hwords, hrest⟩ := eq_of_append_cons (hsign x) (hsign y) hsame
  exact ⟨hinjective hwords, hrest⟩

theorem framed_of_length {encode : α → List Char} (hinjective : Function.Injective encode)
    {length : ℕ} (hlength : ∀ x, (encode x).length = length) : Framed encode := by
  intro x y rest others hsame
  obtain ⟨hwords, hrest⟩ := List.append_inj hsame ((hlength x).trans (hlength y).symm)
  exact ⟨hinjective hwords, hrest⟩

/-! ### Texts behind their size -/

/-- A text and a longer one do not have the same size in bytes. -/
theorem eq_of_utf8ByteSize {first second : String} {rest others : List Char}
    (hsize : first.utf8ByteSize = second.utf8ByteSize)
    (hsame : first.toList ++ rest = second.toList ++ others) : first = second ∧ rest = others := by
  have hempty {short long : String} {more : List Char} (hlong : long.toList = short.toList ++ more)
      (hsizes : short.utf8ByteSize = long.utf8ByteSize) : more = [] := by
    have happend : long = short ++ String.ofList more := by
      rw [← String.toList_inj, hlong, String.toList_append, String.toList_ofList]
    rw [happend, String.utf8ByteSize_append] at hsizes
    have hmore := String.utf8ByteSize_eq_zero_iff.mp (Nat.left_eq_add.mp hsizes)
    rw [← String.toList_inj, String.toList_ofList] at hmore
    exact hmore
  obtain ⟨more, hsecond, rfl⟩ | ⟨more, hfirst, rfl⟩ := List.append_eq_append_iff.mp hsame
  · obtain rfl := hempty hsecond hsize
    rw [List.append_nil] at hsecond
    exact ⟨(String.toList_inj.mp hsecond).symm, rfl⟩
  · obtain rfl := hempty hfirst hsize.symm
    rw [List.append_nil] at hfirst
    exact ⟨String.toList_inj.mp hfirst, rfl⟩

theorem not_mem_natural {sign : Char} (hsign : sign.isDigit = false) (n : ℕ) :
    sign ∉ (toString n).toList := by
  intro hmem
  rw [Nat.toString_eq_repr, Nat.toList_repr] at hmem
  rw [Nat.isDigit_of_mem_toDigits (by norm_num) (by norm_num) hmem] at hsign
  cases hsign

theorem natural_injective {m n : ℕ} (hsame : (toString m).toList = (toString n).toList) :
    m = n := by
  rw [Nat.toString_eq_repr, Nat.toList_repr, Nat.toString_eq_repr, Nat.toList_repr] at hsame
  rw [← Nat.ofDigitChars_ten_toDigits (n := m), hsame, Nat.ofDigitChars_ten_toDigits]

theorem framed_sized :
    Framed fun text : String ↦ (toString text.utf8ByteSize).toList ++ ':' :: text.toList := by
  intro first second rest others hsame
  rw [List.append_assoc, List.append_assoc] at hsame
  obtain ⟨hsizes, htexts⟩ := eq_of_append_cons (not_mem_natural (by decide) _)
    (not_mem_natural (by decide) _) hsame
  exact eq_of_utf8ByteSize (natural_injective hsizes) htexts

/-! ### Numbers -/

/-- The text of an integer is that of a natural number, or one behind a minus. -/
theorem integer_cases (n : ℤ) :
    (0 ≤ n ∧ (toString n).toList = (toString n.toNat).toList) ∨
      (n < 0 ∧ (toString n).toList = '-' :: (toString (-n).toNat).toList) := by
  have htext : toString n = n.repr := rfl
  rw [htext, Int.repr_eq_if]
  by_cases hsign : 0 ≤ n
  · rw [if_pos hsign]
    exact Or.inl ⟨hsign, rfl⟩
  · rw [if_neg hsign, String.toList_append]
    exact Or.inr ⟨not_le.mp hsign, rfl⟩

theorem not_mem_integer {sign : Char} (hsign : sign.isDigit = false) (hminus : sign ≠ '-') (n : ℤ) :
    sign ∉ (toString n).toList := by
  obtain ⟨-, htext⟩ | ⟨-, htext⟩ := integer_cases n
  · rw [htext]
    exact not_mem_natural hsign _
  · rw [htext, List.mem_cons, not_or]
    exact ⟨hminus, not_mem_natural hsign _⟩

theorem integer_injective : Function.Injective fun n : ℤ ↦ (toString n).toList := by
  intro m n hsame
  have hminus (k l : ℕ) : (toString k).toList ≠ '-' :: (toString l).toList := by
    intro h
    have hmem : '-' ∈ (toString k).toList := by
      rw [h]
      exact List.mem_cons_self
    exact not_mem_natural (by decide) k hmem
  dsimp only at hsame
  obtain ⟨hm, hfirst⟩ | ⟨hm, hfirst⟩ := integer_cases m
  · obtain ⟨hn, hsecond⟩ | ⟨hn, hsecond⟩ := integer_cases n
    · rw [hfirst, hsecond] at hsame
      have htoNat := natural_injective hsame
      omega
    · rw [hfirst, hsecond] at hsame
      exact absurd hsame (hminus _ _)
  · obtain ⟨hn, hsecond⟩ | ⟨hn, hsecond⟩ := integer_cases n
    · rw [hfirst, hsecond] at hsame
      exact absurd hsame.symm (hminus _ _)
    · rw [hfirst, hsecond] at hsame
      have htoNat := natural_injective (List.cons.inj hsame).2
      omega

theorem framed_integer : Framed fun n : ℤ ↦ (toString n).toList ++ ['\n'] :=
  framed_of_sign integer_injective fun n ↦ not_mem_integer (by decide) (by decide) n

theorem digitChar_injOn {a b : ℕ} (ha : a < 16) (hb : b < 16)
    (hsame : Nat.digitChar a = Nat.digitChar b) : a = b := by
  have htable : ∀ a < 16, ∀ b < 16, Nat.digitChar a = Nat.digitChar b → a = b := by decide
  exact htable a ha b hb hsame

/-- The low places of a number determine what they make. -/
theorem mod_pow_eq_of_digits {base x y width : ℕ}
    (hdigits : ∀ place < width, x / base ^ place % base = y / base ^ place % base) :
    x % base ^ width = y % base ^ width := by
  induction width with
  | zero => simp [Nat.mod_one]
  | succ width ih =>
    rw [Nat.mod_pow_succ, Nat.mod_pow_succ, ih fun place hplace ↦ hdigits place (by omega),
      hdigits width (by omega)]

end Bongus.Lib.Framing
