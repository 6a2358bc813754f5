import Mathlib.Algebra.GroupWithZero.Nat
import Mathlib.Data.List.Infix
import Mathlib.Algebra.BigOperators.Group.List.Basic
import Bongus.Lib.Fallible

/-!
# Logs of one record per line

A log file holds the encodings of its records, each followed by a newline. It is read line by line:
a line is parsed, and its record is absorbed into a state (`readLines`). A `LineParser` inverts the
encoding, skips empty lines, and refuses a line that was cut off or that has another encoding glued
to it. `readLines_written` reads a whole log back, `readLines_open` one whose last newline is
missing, and `readLines_bad` says that a refused line stops the reading.
-/

set_option autoImplicit false
set_option relaxedAutoImplicit false

namespace Bongus.Lib.LineLog

open Fallible

abbrev Bytes := List UInt8

def newline : UInt8 := 10

/-- The lines of a file. The last one need not be terminated. -/
def lines : Bytes → List Bytes
  | [] => []
  | byte :: rest =>
    if byte = newline then [] :: lines rest
    else
      match lines rest with
      | [] => [[byte]]
      | first :: more => (byte :: first) :: more

theorem lines_terminated {line : Bytes} (hline : newline ∉ line) (rest : Bytes) :
    lines (line ++ newline :: rest) = line :: lines rest := by
  induction line with
  | nil => simp [lines]
  | cons byte tail ih =>
    rw [List.mem_cons, not_or] at hline
    have hbyte : byte ≠ newline := fun h ↦ hline.1 h.symm
    rw [List.cons_append, lines, if_neg hbyte, ih hline.2]

theorem lines_unterminated {line : Bytes} (hline : newline ∉ line) (hne : line ≠ []) :
    lines line = [line] := by
  induction line with
  | nil => exact absurd rfl hne
  | cons byte tail ih =>
    rw [List.mem_cons, not_or] at hline
    have hbyte : byte ≠ newline := fun h ↦ hline.1 h.symm
    cases tail with
    | nil => simp [lines, hbyte]
    | cons next more => rw [lines, if_neg hbyte, ih hline.2 (List.cons_ne_nil _ _)]

variable {Record State : Type}

/-- A parser of the lines that an encoding writes. -/
structure LineParser (encode : Record → Bytes) where
  parse : Bytes → Except String (Option Record)
  parse_nil : parse [] = .ok none
  parse_encode : ∀ record, parse (encode record) = .ok (some record)
  parse_torn : ∀ record line, line <+: encode record → line ≠ [] → line ≠ encode record →
    ∃ message, parse line = .error message
  parse_glued : ∀ record other line, line <+: encode other → line ≠ [] →
    ∃ message, parse (encode record ++ line) = .error message
  newline_free : ∀ record, newline ∉ encode record
  encode_ne_nil : ∀ record, encode record ≠ []

/-- The file of a log. -/
def written (encode : Record → Bytes) (records : List Record) : Bytes :=
  records.flatMap fun record ↦ encode record ++ [newline]

@[simp] theorem written_nil (encode : Record → Bytes) : written encode [] = [] := rfl

theorem written_cons (encode : Record → Bytes) (record : Record) (rest : List Record) :
    written encode (record :: rest) = encode record ++ newline :: written encode rest := by
  simp [written]

theorem written_concat (encode : Record → Bytes) (records : List Record) (record : Record) :
    written encode (records ++ [record]) =
      written encode records ++ (encode record ++ [newline]) := by
  simp [written]

theorem length_written (encode : Record → Bytes) (records : List Record) :
    (written encode records).length =
      (records.map fun record ↦ (encode record).length + 1).sum := by
  simp [written, List.length_flatMap]

/-- How a log is read: what a record on a line does to the state, and what is said of a line that
the parser refuses. -/
structure Reader (State Record : Type) where
  absorb : ℕ → State → Record → Except String State
  refusal : ℕ → String → String

variable (reader : Reader State Record)

/-- The records take the state to a final one, on whatever lines they stand. -/
def Absorbs : State → List Record → State → Prop
  | state, [], final => state = final
  | state, record :: rest, final =>
    ∃ next, (∀ lineNo, reader.absorb lineNo state record = .ok next) ∧ Absorbs next rest final

variable {reader}

theorem absorbs_append {state final : State} {first second : List Record} :
    Absorbs reader state (first ++ second) final ↔
      ∃ middle, Absorbs reader state first middle ∧ Absorbs reader middle second final := by
  induction first generalizing state with
  | nil => simp [Absorbs]
  | cons record rest ih =>
    simp only [List.cons_append, Absorbs, ih]
    constructor
    · rintro ⟨next, hnext, middle, hfirst, hsecond⟩
      exact ⟨middle, ⟨next, hnext, hfirst⟩, hsecond⟩
    · rintro ⟨middle, ⟨next, hnext, hfirst⟩, hsecond⟩
      exact ⟨next, hnext, middle, hfirst, hsecond⟩

theorem absorbs_concat {state final : State} {records : List Record} {record : Record} :
    Absorbs reader state (records ++ [record]) final ↔
      ∃ middle, Absorbs reader state records middle ∧
        ∀ lineNo, reader.absorb lineNo middle record = .ok final := by
  simp [absorbs_append, Absorbs]

variable {encode : Record → Bytes} (parser : LineParser encode) (reader)

/-- Reading lines from number `lineNo` on, with the count of records read so far. -/
def readLines : ℕ → List Bytes → State × ℕ → Except String (State × ℕ)
  | _, [], result => .ok result
  | lineNo, line :: rest, (state, count) => do
    match ← (parser.parse line).mapError (reader.refusal lineNo) with
    | none => readLines (lineNo + 1) rest (state, count)
    | some record =>
      let next ← reader.absorb lineNo state record
      readLines (lineNo + 1) rest (next, count + 1)

variable {reader}

/-- A line that the parser accepts as a record is absorbed. -/
theorem readLines_cons {lineNo count : ℕ} {record : Record} {state next : State}
    {rest : List Bytes} (habsorb : ∀ lineNo, reader.absorb lineNo state record = .ok next) :
    readLines reader parser lineNo (encode record :: rest) (state, count) =
      readLines reader parser (lineNo + 1) rest (next, count + 1) := by
  rw [readLines, parser.parse_encode, Except.mapError, ok_bind]
  simp only [habsorb, ok_bind]

/-- A log is read back: first its records, then whatever follows them. -/
theorem readLines_written_append {state final : State} {records : List Record} (rest : Bytes)
    (habsorbs : Absorbs reader state records final) (lineNo count : ℕ) :
    readLines reader parser lineNo (lines (written encode records ++ rest)) (state, count) =
      readLines reader parser (lineNo + records.length) (lines rest)
        (final, count + records.length) := by
  induction records generalizing state lineNo count with
  | nil =>
    cases habsorbs
    simp
  | cons record tail ih =>
    obtain ⟨next, hnext, htail⟩ := habsorbs
    rw [written_cons, List.append_assoc, List.cons_append,
      lines_terminated (parser.newline_free record), readLines_cons parser hnext, ih htail,
      List.length_cons]
    congr 1
    · omega
    · congr 1
      omega

theorem readLines_written {state final : State} {records : List Record}
    (habsorbs : Absorbs reader state records final) :
    readLines reader parser 1 (lines (written encode records)) (state, 0) =
      .ok (final, records.length) := by
  have hread := readLines_written_append parser [] habsorbs 1 0
  rw [List.append_nil, lines, readLines, Nat.zero_add] at hread
  exact hread

/-- A log whose last newline is missing reads like the whole one. -/
theorem readLines_open {state final : State} {records : List Record} {last : Record}
    (habsorbs : Absorbs reader state (records ++ [last]) final) :
    readLines reader parser 1 (lines (written encode records ++ encode last)) (state, 0) =
      .ok (final, records.length + 1) := by
  obtain ⟨middle, hrecords, hlast⟩ := absorbs_concat.mp habsorbs
  rw [readLines_written_append parser _ hrecords,
    lines_unterminated (parser.newline_free last) (parser.encode_ne_nil last),
    readLines_cons parser hlast, readLines, Nat.zero_add]

/-- Reading stops at a line that the parser refuses, or before it. -/
theorem readLines_bad {content : List Bytes} {line : Bytes} {message : String}
    (hline : parser.parse line = .error message) (hmem : line ∈ content) (lineNo : ℕ)
    (result : State × ℕ) : ∃ message, readLines reader parser lineNo content result =
      .error message := by
  induction content generalizing lineNo result with
  | nil => simp at hmem
  | cons first rest ih =>
    obtain ⟨state, count⟩ := result
    rw [readLines]
    rcases List.mem_cons.mp hmem with rfl | hrest
    · exact ⟨_, by rw [hline, Except.mapError, error_bind]⟩
    · cases hparse : parser.parse first with
      | error other => exact ⟨_, by rw [Except.mapError, error_bind]⟩
      | ok parsed =>
        rw [Except.mapError, ok_bind]
        cases parsed with
        | none => exact ih hrest _ _
        | some record =>
          cases habsorb : reader.absorb lineNo state record with
          | error other => exact ⟨other, by simp [habsorb, error_bind]⟩
          | ok next => simpa only [habsorb, ok_bind] using ih hrest (lineNo + 1) (next, count + 1)

/-- Records in front of a line leave it a line. -/
theorem mem_lines_written (hfree : ∀ record, newline ∉ encode record) {records : List Record}
    {line rest : Bytes} (hline : line ∈ lines rest) :
    line ∈ lines (written encode records ++ rest) := by
  induction records with
  | nil => exact hline
  | cons record tail ih =>
    rw [written_cons, List.append_assoc, List.cons_append,
      lines_terminated (hfree record)]
    exact List.mem_cons_of_mem _ ih

/-! ### What a log file can be -/

/-- A terminated line of the file is refused, whatever is appended to it. -/
def Broken (file : Bytes) : Prop :=
  ∃ line, (∃ message, parser.parse line = .error message) ∧ ∀ rest, line ∈ lines (file ++ rest)

variable (reader)

/-- A file that holds a state reached from an initial one: all of its lines are whole, or the last
newline is missing, or it can no longer be read. -/
inductive Content (initial state : State) : Bytes → Prop
  | whole (records : List Record) (habsorbs : Absorbs reader initial records state) :
      Content initial state (written encode records)
  | unterminated (records : List Record) (last : Record)
      (habsorbs : Absorbs reader initial (records ++ [last]) state) :
      Content initial state (written encode records ++ encode last)
  | broken (file : Bytes) (hbroken : Broken parser file) : Content initial state file

variable {reader parser}

theorem Broken.append {file : Bytes} (hbroken : Broken parser file) (rest : Bytes) :
    Broken parser (file ++ rest) := by
  obtain ⟨line, hline, hmem⟩ := hbroken
  exact ⟨line, hline, fun more ↦ by rw [List.append_assoc]; exact hmem _⟩

theorem Broken.refused {file : Bytes} (hbroken : Broken parser file) (result : State × ℕ) :
    ∃ message, readLines reader parser 1 (lines file) result = .error message := by
  obtain ⟨line, ⟨message, hline⟩, hmem⟩ := hbroken
  have hmem := hmem []
  rw [List.append_nil] at hmem
  exact readLines_bad parser hline hmem 1 result

/-- Reading such a file gives its state or an error. -/
theorem Content.read {initial state : State} {file : Bytes}
    (hcontent : Content reader parser initial state file) :
    (∃ count, readLines reader parser 1 (lines file) (initial, 0) = .ok (state, count)) ∨
      ∃ message, readLines reader parser 1 (lines file) (initial, 0) = .error message := by
  cases hcontent with
  | whole records habsorbs => exact Or.inl ⟨_, readLines_written parser habsorbs⟩
  | unterminated records last habsorbs => exact Or.inl ⟨_, readLines_open parser habsorbs⟩
  | broken _ hbroken => exact Or.inr (hbroken.refused _)

/-- What is left of an append that was cut off: nothing, part of the encoding, the encoding without
its newline, or all of it. -/
theorem torn_cases {record : Record} {piece : Bytes} (hpiece : piece <+: encode record ++ [newline]) :
    piece = [] ∨ (piece ≠ [] ∧ piece <+: encode record) ∨ piece = encode record ++ [newline] := by
  rcases List.prefix_concat_iff.mp hpiece with rfl | hshort
  · exact Or.inr (Or.inr rfl)
  · by_cases hnil : piece = []
    · exact Or.inl hnil
    · exact Or.inr (Or.inl ⟨hnil, hshort⟩)

/-- A record that is appended to one without its newline leaves a line that is refused. -/
theorem broken_glued (records : List Record) (last record : Record) :
    Broken parser (written encode records ++ encode last ++ (encode record ++ [newline])) := by
  refine ⟨encode last ++ encode record, ?_, fun rest ↦ ?_⟩
  · exact parser.parse_glued last record _ List.prefix_rfl (parser.encode_ne_nil record)
  · have hfree : newline ∉ encode last ++ encode record := by
      rw [List.mem_append, not_or]
      exact ⟨parser.newline_free last, parser.newline_free record⟩
    have hfile : written encode records ++ encode last ++ (encode record ++ [newline]) ++ rest =
        written encode records ++ (encode last ++ encode record ++ newline :: rest) := by
      simp
    rw [hfile]
    refine mem_lines_written parser.newline_free ?_
    rw [lines_terminated hfree]
    exact List.mem_cons_self

section Torn

variable {record : Record} {piece : Bytes} (records : List Record) (hne : piece ≠ [])
  (hshort : piece <+: encode record) (result : State × ℕ)

include hne hshort

/-- A part of a record stops the reading. -/
theorem refused_torn (hpart : piece ≠ encode record) :
    ∃ message, readLines reader parser 1 (lines (written encode records ++ piece)) result =
      .error message := by
  have hfree : newline ∉ piece := fun h ↦ parser.newline_free record (hshort.subset h)
  obtain ⟨message, hmessage⟩ := parser.parse_torn record piece hshort hne hpart
  refine readLines_bad parser hmessage ?_ 1 _
  refine mem_lines_written parser.newline_free ?_
  rw [lines_unterminated hfree hne]
  exact List.mem_singleton_self _

/-- So does a part of a record behind one without its newline. -/
theorem refused_glued (last : Record) :
    ∃ message, readLines reader parser 1 (lines (written encode records ++ encode last ++ piece))
      result = .error message := by
  have hfree : newline ∉ piece := fun h ↦ parser.newline_free record (hshort.subset h)
  obtain ⟨message, hmessage⟩ := parser.parse_glued last record piece hshort hne
  refine readLines_bad parser hmessage ?_ 1 _
  rw [List.append_assoc]
  refine mem_lines_written parser.newline_free ?_
  rw [lines_unterminated]
  · exact List.mem_singleton_self _
  · rw [List.mem_append, not_or]
    exact ⟨parser.newline_free last, hfree⟩
  · simp [hne]

end Torn

/-- Appending a record to a file leaves a file of the next state. -/
theorem Content.append {initial state next : State} {file : Bytes} {record : Record}
    (hcontent : Content reader parser initial state file)
    (habsorb : ∀ lineNo, reader.absorb lineNo state record = .ok next) :
    Content reader parser initial next (file ++ (encode record ++ [newline])) := by
  cases hcontent with
  | whole records habsorbs =>
    rw [← written_concat]
    exact .whole _ (absorbs_concat.mpr ⟨state, habsorbs, habsorb⟩)
  | unterminated records last habsorbs => exact .broken _ (broken_glued records last record)
  | broken _ hbroken => exact .broken _ (hbroken.append _)

/-- An append that was cut off leaves a file of the state before, a file of the state after, or one
that cannot be read. -/
theorem Content.torn {initial state next : State} {file piece : Bytes} {record : Record}
    (hcontent : Content reader parser initial state file)
    (habsorb : ∀ lineNo, reader.absorb lineNo state record = .ok next)
    (hpiece : piece <+: encode record ++ [newline]) :
    Content reader parser initial state (file ++ piece) ∨
      Content reader parser initial next (file ++ piece) ∨
      ∃ message, readLines reader parser 1 (lines (file ++ piece)) (initial, 0) =
        .error message := by
  rcases torn_cases hpiece with rfl | ⟨hne, hshort⟩ | rfl
  · rw [List.append_nil]
    exact Or.inl hcontent
  · cases hcontent with
    | whole records habsorbs =>
      by_cases hall : piece = encode record
      · subst hall
        exact Or.inr (Or.inl (.unterminated _ _ (absorbs_concat.mpr ⟨state, habsorbs, habsorb⟩)))
      · exact Or.inr (Or.inr (refused_torn records hne hshort _ hall))
    | unterminated records last habsorbs =>
      exact Or.inr (Or.inr (refused_glued records hne hshort _ last))
    | broken _ hbroken => exact Or.inl (.broken _ (hbroken.append _))
  · exact Or.inr (Or.inl (hcontent.append habsorb))

end Bongus.Lib.LineLog
