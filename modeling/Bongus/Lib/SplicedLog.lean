import Bongus.Lib.LineLog

/-!
# Logs that are written to after a torn append

An append that is cut off leaves a piece of a record at the end of a log. If the log is written to
all the same, the next record is glued to the piece, and a line can come to hold any number of
pieces (`Spliced`). A `SpliceParser` refuses a line of several pieces. `Log` is what a file can look
like, and every append keeps it, whole or cut off (`Log.append`), as every loss of its end does
(`Log.take`). A record that is appended can be
read back exactly if the file was whole (`Log.whole_or_refused`), and an append that is cut off adds
nothing, or the record, or leaves a line that is refused (`Log.torn`).
-/

set_option autoImplicit false
set_option relaxedAutoImplicit false

namespace Bongus.Lib.LineLog

variable {Record : Type} {encode : Record → Bytes}

/-- The beginning of a record, or all of it. -/
def Piece (encode : Record → Bytes) (piece : Bytes) : Prop :=
  piece ≠ [] ∧ ∃ record, piece <+: encode record

/-- A line of pieces, one glued to the other. -/
def Spliced (encode : Record → Bytes) (line : Bytes) : Prop :=
  ∃ pieces : List Bytes, pieces ≠ [] ∧ (∀ piece ∈ pieces, Piece encode piece) ∧
    line = pieces.flatten

/-- A parser that refuses a line of several pieces. -/
structure SpliceParser (encode : Record → Bytes) extends LineParser encode where
  parse_spliced : ∀ pieces : List Bytes, 2 ≤ pieces.length →
    (∀ piece ∈ pieces, Piece encode piece) → ∃ message, parse pieces.flatten = .error message

/-- A file whose lines are whole records. -/
def Whole (encode : Record → Bytes) (file : Bytes) : Prop :=
  ∃ records, file = written encode records

/-- Some line of the file is refused. -/
def Refused (parser : LineParser encode) (file : Bytes) : Prop :=
  ∃ line ∈ lines file, ∃ message, parser.parse line = .error message

/-- The lines of a file, each with its newline. -/
def terminated (closed : List Bytes) : Bytes := closed.flatMap fun line ↦ line ++ [newline]

/-- Lines of pieces, and pieces behind the last newline. -/
def Log (encode : Record → Bytes) (file : Bytes) : Prop :=
  ∃ closed tail, file = terminated closed ++ tail ∧ (∀ line ∈ closed, Spliced encode line) ∧
    (tail = [] ∨ Spliced encode tail)

/-! ### Lines of pieces -/

theorem Piece.spliced {piece : Bytes} (hpiece : Piece encode piece) : Spliced encode piece :=
  ⟨[piece], List.cons_ne_nil _ _, by simpa using hpiece, by simp⟩

theorem Spliced.concat {line piece : Bytes} (hline : Spliced encode line)
    (hpiece : Piece encode piece) : Spliced encode (line ++ piece) := by
  obtain ⟨pieces, hne, hpieces, rfl⟩ := hline
  refine ⟨pieces ++ [piece], by simp, fun found hfound ↦ ?_, by simp⟩
  rcases List.mem_append.mp hfound with hearlier | hlast
  · exact hpieces found hearlier
  · rw [List.mem_singleton.mp hlast]
    exact hpiece

theorem Spliced.ne_nil {line : Bytes} (hline : Spliced encode line) : line ≠ [] := by
  obtain ⟨pieces, hne, hpieces, rfl⟩ := hline
  obtain ⟨first, rest, rfl⟩ := List.exists_cons_of_ne_nil hne
  rw [List.flatten_cons]
  exact List.append_ne_nil_of_left_ne_nil (hpieces first List.mem_cons_self).1 _

/-- No end of a record is the beginning of one. -/
def Unbordered (encode : Record → Bytes) : Prop :=
  ∀ record other piece, piece <:+ encode record → piece ≠ encode record → piece ≠ [] →
    ¬ piece <+: encode other

/-- Then several pieces never make a record: the last of them would be the end of it. -/
theorem Unbordered.flatten_ne (hunbordered : Unbordered encode) {pieces : List Bytes}
    (hlength : 2 ≤ pieces.length) (hpieces : ∀ piece ∈ pieces, Piece encode piece)
    (record : Record) : pieces.flatten ≠ encode record := by
  intro hrecord
  rcases List.eq_nil_or_concat pieces with rfl | ⟨first, last, rfl⟩
  · simp at hlength
  · rw [List.concat_eq_append] at hlength hpieces hrecord
    rw [List.flatten_append, List.flatten_singleton] at hrecord
    obtain ⟨hlast, other, hbegins⟩ := hpieces last (by simp)
    refine hunbordered record other last ⟨_, hrecord⟩ (fun hall ↦ ?_) hlast hbegins
    have hempty : first.flatten = [] := by rwa [hall, List.append_left_eq_self] at hrecord
    obtain ⟨piece, rest, rfl⟩ : ∃ piece rest, first = piece :: rest := by
      cases first with
      | nil => simp at hlength
      | cons piece rest => exact ⟨piece, rest, rfl⟩
    rw [List.flatten_cons, List.append_eq_nil_iff] at hempty
    exact (hpieces piece (by simp)).1 hempty.1

variable (parser : SpliceParser encode)

include parser in
theorem Spliced.newline_notMem {line : Bytes} (hline : Spliced encode line) : newline ∉ line := by
  obtain ⟨pieces, -, hpieces, rfl⟩ := hline
  intro hmem
  obtain ⟨piece, hpiece, hnewline⟩ := List.mem_flatten.mp hmem
  obtain ⟨-, record, hprefix⟩ := hpieces piece hpiece
  exact parser.newline_free record (List.IsPrefix.subset hprefix hnewline)

/-- A line of pieces is a record, or is refused. -/
theorem Spliced.whole_or_refused {line : Bytes} (hline : Spliced encode line) :
    (∃ record, line = encode record) ∨ ∃ message, parser.parse line = .error message := by
  obtain ⟨pieces, hne, hpieces, rfl⟩ := hline
  obtain ⟨first, rest, rfl⟩ := List.exists_cons_of_ne_nil hne
  cases rest with
  | nil =>
    obtain ⟨hfirst, record, hprefix⟩ := hpieces first List.mem_cons_self
    rw [List.flatten_cons, List.flatten_nil, List.append_nil]
    by_cases hall : first = encode record
    · exact Or.inl ⟨record, hall⟩
    · exact Or.inr (parser.parse_torn record first hprefix hfirst hall)
  | cons second more =>
    refine Or.inr (parser.parse_spliced _ ?_ hpieces)
    simp

/-- Pieces with another piece behind them are refused. -/
theorem Spliced.concat_refused {line piece : Bytes} (hline : Spliced encode line)
    (hpiece : Piece encode piece) : ∃ message, parser.parse (line ++ piece) = .error message := by
  obtain ⟨pieces, hne, hpieces, rfl⟩ := hline
  have hflat : pieces.flatten ++ piece = (pieces ++ [piece]).flatten := by simp
  have hlength : 2 ≤ (pieces ++ [piece]).length := by
    have hpos := List.length_pos_of_ne_nil hne
    rw [List.length_append, List.length_singleton]
    omega
  rw [hflat]
  refine parser.parse_spliced _ hlength fun found hfound ↦ ?_
  rcases List.mem_append.mp hfound with hearlier | hlast
  · exact hpieces found hearlier
  · rw [List.mem_singleton.mp hlast]
    exact hpiece

/-! ### Files -/

theorem terminated_concat (closed : List Bytes) (line : Bytes) :
    terminated (closed ++ [line]) = terminated closed ++ (line ++ [newline]) := by
  simp [terminated]

theorem lines_terminated_append {closed : List Bytes} (hclosed : ∀ line ∈ closed, newline ∉ line)
    (rest : Bytes) : lines (terminated closed ++ rest) = closed ++ lines rest := by
  induction closed with
  | nil => rfl
  | cons line more ih =>
    have hline := hclosed line List.mem_cons_self
    rw [terminated, List.flatMap_cons, List.append_assoc, List.append_assoc, List.singleton_append,
      lines_terminated hline, ← terminated,
      ih fun found hfound ↦ hclosed found (List.mem_cons_of_mem _ hfound), List.cons_append]

theorem written_eq_terminated (records : List Record) :
    written encode records = terminated (records.map encode) := by
  rw [written, terminated, List.flatMap_map]

theorem log_nil : Log encode [] := ⟨[], [], rfl, by simp, Or.inl rfl⟩

theorem log_written (hne : ∀ record, encode record ≠ []) (records : List Record) :
    Log encode (written encode records) := by
  refine ⟨records.map encode, [], by rw [written_eq_terminated, List.append_nil], ?_, Or.inl rfl⟩
  intro line hline
  obtain ⟨record, -, rfl⟩ := List.mem_map.mp hline
  exact Piece.spliced ⟨hne record, record, List.prefix_rfl⟩

/-- The pieces behind the last newline, with another one. -/
theorem spliced_tail {tail piece : Bytes} (htail : tail = [] ∨ Spliced encode tail)
    (hpiece : Piece encode piece) : Spliced encode (tail ++ piece) := by
  rcases htail with rfl | htail
  · exact hpiece.spliced
  · exact htail.concat hpiece

include parser in
theorem piece_encode (record : Record) : Piece encode (encode record) :=
  ⟨parser.encode_ne_nil record, record, List.prefix_rfl⟩

include parser in
/-- An append keeps the shape of a log, however much of it is written. -/
theorem Log.append {file piece : Bytes} {record : Record} (hlog : Log encode file)
    (hpiece : piece <+: encode record ++ [newline]) : Log encode (file ++ piece) := by
  obtain ⟨closed, tail, rfl, hclosed, htail⟩ := hlog
  rcases torn_cases hpiece with rfl | ⟨hne, hshort⟩ | rfl
  · exact ⟨closed, tail, by simp, hclosed, htail⟩
  · have htail := spliced_tail htail ⟨hne, record, hshort⟩
    exact ⟨closed, tail ++ piece, by simp, hclosed, Or.inr htail⟩
  · refine ⟨closed ++ [tail ++ encode record], [], ?_, fun line hline ↦ ?_, Or.inl rfl⟩
    · rw [terminated_concat]
      simp
    · rcases List.mem_append.mp hline with hearlier | hlast
      · exact hclosed line hearlier
      · rw [List.mem_singleton.mp hlast]
        exact spliced_tail htail (piece_encode parser record)

/-- The beginning of pieces is made of pieces. -/
theorem Spliced.take {line : Bytes} (hline : Spliced encode line) (count : ℕ) :
    line.take count = [] ∨ Spliced encode (line.take count) := by
  obtain ⟨pieces, -, hpieces, rfl⟩ := hline
  induction pieces generalizing count with
  | nil => exact Or.inl (by simp)
  | cons first rest ih =>
    obtain ⟨hfirst, record, hshort⟩ := hpieces first List.mem_cons_self
    have hrest := fun found hfound ↦ hpieces found (List.mem_cons_of_mem _ hfound)
    rw [List.flatten_cons, List.take_append]
    by_cases hinside : count < first.length
    · rw [Nat.sub_eq_zero_of_le hinside.le, List.take_zero, List.append_nil]
      by_cases hnil : first.take count = []
      · exact Or.inl hnil
      · exact Or.inr (Piece.spliced ⟨hnil, record, (List.take_prefix _ _).trans hshort⟩)
    · rw [List.take_of_length_le (Nat.le_of_not_lt hinside)]
      right
      rcases ih (count - first.length) hrest with hnil | ⟨pieces, hne, hmore, hflat⟩
      · rw [hnil, List.append_nil]
        exact Piece.spliced ⟨hfirst, record, hshort⟩
      · refine ⟨first :: pieces, List.cons_ne_nil _ _, fun found hfound ↦ ?_, by
          rw [hflat, List.flatten_cons]⟩
        rcases List.mem_cons.mp hfound with rfl | hlater
        · exact ⟨hfirst, record, hshort⟩
        · exact hmore found hlater

/-- The beginning of a log is a log. -/
theorem Log.take {file : Bytes} (hlog : Log encode file) (count : ℕ) :
    Log encode (file.take count) := by
  obtain ⟨closed, tail, rfl, hclosed, htail⟩ := hlog
  induction closed generalizing count with
  | nil =>
    refine ⟨[], tail.take count, rfl, nofun, ?_⟩
    rcases htail with rfl | htail
    · exact Or.inl List.take_nil
    · exact htail.take count
  | cons line more ih =>
    have hline := hclosed line List.mem_cons_self
    have hsplit : terminated (line :: more) ++ tail =
        line ++ newline :: (terminated more ++ tail) := by
      simp [terminated]
    rw [hsplit, List.take_append]
    by_cases hinside : count ≤ line.length
    · rw [Nat.sub_eq_zero_of_le hinside, List.take_zero, List.append_nil]
      exact ⟨[], line.take count, rfl, nofun, hline.take count⟩
    · obtain ⟨extra, hextra⟩ := Nat.exists_eq_add_of_lt (Nat.lt_of_not_le hinside)
      have hcount : count - line.length = extra + 1 := by omega
      rw [List.take_of_length_le (Nat.le_of_not_le hinside), hcount, List.take_succ_cons]
      obtain ⟨closed, left, hfile, hkept, hleft⟩ := ih extra fun found hfound ↦
        hclosed found (List.mem_cons_of_mem _ hfound)
      refine ⟨line :: closed, left, ?_, fun found hfound ↦ ?_, hleft⟩
      · rw [hfile]
        simp [terminated]
      · rcases List.mem_cons.mp hfound with rfl | hlater
        · exact hline
        · exact hkept found hlater

/-- The closed lines of a log are records, or one of them is refused in front of anything. -/
theorem closed_whole_or_refused {closed : List Bytes}
    (hclosed : ∀ line ∈ closed, Spliced encode line) (rest : Bytes) :
    (∃ records : List Record, closed = records.map encode) ∨
      Refused parser.toLineParser (terminated closed ++ rest) := by
  have hfree : ∀ line ∈ closed, newline ∉ line := fun line hline ↦
    (hclosed line hline).newline_notMem parser
  by_cases hall : ∀ line ∈ closed, ∃ record, line = encode record
  · left
    clear hclosed hfree
    induction closed with
    | nil => exact ⟨[], rfl⟩
    | cons line more ih =>
      obtain ⟨record, rfl⟩ := hall line List.mem_cons_self
      obtain ⟨records, rfl⟩ := ih fun found hfound ↦ hall found (List.mem_cons_of_mem _ hfound)
      exact ⟨record :: records, rfl⟩
  · right
    simp only [not_forall] at hall
    obtain ⟨line, hline, hnot⟩ := hall
    refine ⟨line, ?_, ((hclosed line hline).whole_or_refused parser).resolve_left hnot⟩
    rw [lines_terminated_append hfree]
    exact List.mem_append_left _ hline

/-- What stands behind the closed lines is a line of its own. -/
theorem refused_of_open {closed : List Bytes} (hclosed : ∀ line ∈ closed, Spliced encode line)
    {line rest : Bytes} {message : String} (hparse : parser.parse line = .error message)
    (hline : line ∈ lines rest) : Refused parser.toLineParser (terminated closed ++ rest) := by
  refine ⟨line, ?_, message, hparse⟩
  rw [lines_terminated_append fun found hfound ↦ (hclosed found hfound).newline_notMem parser]
  exact List.mem_append_right _ hline

theorem mem_lines_terminated {line : Bytes} (hline : newline ∉ line) :
    line ∈ lines (line ++ [newline]) := by
  rw [lines_terminated hline]
  exact List.mem_cons_self

/-- Behind a file that is not whole a record cannot be read. -/
theorem Log.whole_or_refused {file : Bytes} (hlog : Log encode file) (record : Record) :
    Whole encode file ∨ Refused parser.toLineParser (file ++ (encode record ++ [newline])) := by
  obtain ⟨closed, tail, rfl, hclosed, htail⟩ := hlog
  rw [List.append_assoc]
  rcases htail with rfl | htail
  · rcases closed_whole_or_refused parser hclosed ([] ++ (encode record ++ [newline])) with
      ⟨records, rfl⟩ | hrefused
    · exact Or.inl ⟨records, by rw [written_eq_terminated, List.append_nil]⟩
    · exact Or.inr hrefused
  · obtain ⟨message, hparse⟩ := htail.concat_refused parser (piece_encode parser record)
    have hfree := (htail.concat (piece_encode parser record)).newline_notMem parser
    refine Or.inr (refused_of_open parser hclosed hparse ?_)
    rw [← List.append_assoc]
    exact mem_lines_terminated hfree

/-- An append that is cut off adds nothing, or adds the record to a whole file, with or without its
newline, or leaves a line that is refused. -/
theorem Log.torn {file piece : Bytes} {record : Record} (hlog : Log encode file)
    (hpiece : piece <+: encode record ++ [newline]) :
    piece = [] ∨ Refused parser.toLineParser (file ++ piece) ∨
      (Whole encode file ∧ (piece = encode record ∨ piece = encode record ++ [newline])) := by
  rcases torn_cases hpiece with rfl | ⟨hne, hshort⟩ | rfl
  · exact Or.inl rfl
  · right
    obtain ⟨closed, tail, rfl, hclosed, htail⟩ := hlog
    have hbegins : Piece encode piece := ⟨hne, record, hshort⟩
    rcases htail with rfl | htail
    · rw [List.append_nil]
      by_cases hall : piece = encode record
      · rcases closed_whole_or_refused parser hclosed piece with ⟨records, rfl⟩ | hrefused
        · exact Or.inr ⟨⟨records, (written_eq_terminated records).symm⟩, Or.inl hall⟩
        · exact Or.inl hrefused
      · obtain ⟨message, hparse⟩ := parser.parse_torn record piece hshort hne hall
        refine Or.inl (refused_of_open parser hclosed hparse ?_)
        rw [lines_unterminated (hbegins.spliced.newline_notMem parser) hne]
        exact List.mem_singleton_self _
    · obtain ⟨message, hparse⟩ := htail.concat_refused parser hbegins
      rw [List.append_assoc]
      refine Or.inl (refused_of_open parser hclosed hparse ?_)
      rw [lines_unterminated ((htail.concat hbegins).newline_notMem parser)
        (htail.concat hbegins).ne_nil]
      exact List.mem_singleton_self _
  · rcases hlog.whole_or_refused parser record with hwhole | hrefused
    · exact Or.inr (Or.inr ⟨hwhole, Or.inr rfl⟩)
    · exact Or.inr (Or.inl hrefused)

end Bongus.Lib.LineLog
