import Bongus.Lib.AtomicReplace
import Bongus.Lib.JsonText
import Bongus.Lib.Runs

/-!
# The cursor of a private stream

The cursor file of `execution_engine/src/user_data_ws.rs`: a log of the times up to which a private
stream has been replayed. `appendCursor` reads the file, refuses a time before the last one, and
appends a record or replaces the file by it; `loadCursorPath` returns the last time.

A record whose newline was lost is still read. The next record is then appended on its line, the
append succeeds, and the file can no longer be read (`lost_newline_breaks_cursor`). A time below
zero is written and not read back either. `cursor_durable_iff` shows that the times acknowledged
along a run are safe just if neither happens (`Safe`).
-/

set_option autoImplicit false
set_option relaxedAutoImplicit false

namespace Bongus.Engine.PrivateCursor

open Lib.AtomicReplace Lib.Fallible Lib.JsonText Lib.LineLog Lib.Runs

inductive UserDataStreamKind where
  | spot
  | futures
deriving DecidableEq, Repr

def UserDataStreamKind.asStr : UserDataStreamKind → String
  | .spot => "spot"
  | .futures => "futures"

structure CursorRecord where
  stream : String
  throughMs : ℤ
  recordedAtMs : ℤ
deriving DecidableEq, Repr

/-- The fields of a record in the order in which `serde_json` writes a map. -/
def CursorRecord.fields (record : CursorRecord) : List Field :=
  [("recorded_at_ms", .number record.recordedAtMs),
    ("schema_version", .number 1),
    ("stream", .text record.stream),
    ("through_ms", .number record.throughMs)]

theorem CursorRecord.fields_injective : Function.Injective CursorRecord.fields := by
  intro first second h
  cases first
  cases second
  simp only [CursorRecord.fields, List.cons.injEq, Prod.mk.injEq, Scalar.number.injEq,
    Scalar.text.injEq, true_and, and_true] at h
  obtain ⟨hrecorded, hstream, hthrough⟩ := h
  rw [hrecorded, hstream, hthrough]

def CursorRecord.encode (record : CursorRecord) : Bytes := object record.fields

/-- What reads the lines of the file: `serde_json`, as far as records, whole or cut off, are
concerned. -/
abbrev CursorParser := LineParser CursorRecord.encode

noncomputable def exactCursorParser : CursorParser :=
  exactParser CursorRecord.fields CursorRecord.fields_injective

section Cursor

variable (parser : CursorParser) (kind : UserDataStreamKind) (cursorMaxBytes : ℕ)

/-! ### Loading -/

def cursorReader : Reader (Option ℤ) CursorRecord where
  absorb _ latest record :=
    if record.stream ≠ kind.asStr then
      .error ("private-stream cursor contains mismatched stream " ++ record.stream)
    else if record.throughMs < 0 then .error "private-stream cursor has invalid through_ms"
    else if latest.any (record.throughMs < ·) then .error "private-stream cursor regressed"
    else .ok (some record.throughMs)
  refusal lineNo err := "invalid private-stream cursor line " ++ toString lineNo ++ ": " ++ err

def readCursor (file : Bytes) : Except String (Option ℤ) :=
  (readLines (cursorReader kind) parser 1 (lines file) (none, 0)).map Prod.fst

def loadCursorPath (files : Files Bytes) : Except String (Option ℤ) × Files Bytes :=
  let files := files.recover
  match files.main with
  | none => (.ok none, files)
  | some file => (readCursor parser kind file, files)

/-! ### Appending -/

/-- Where a compaction stops: before a file operation, or behind the last one, when the removal of
the backup may have failed. A new file that cannot be put in place brings the old one back and
leaves what `cleared` leaves. -/
inductive CompactionStop where
  | started
  | writing (kept : ℕ)
  | cleared
  | rotated
  | installed
  | completed (backupKept : Bool)
deriving DecidableEq, Repr

def CompactionStop.completes : CompactionStop → Bool
  | .completed _ => true
  | _ => false

def CompactionStop.files (stop : CompactionStop) (files : Files Bytes) (encoded : Bytes) :
    Files Bytes :=
  match stop with
  | .started => files
  | .writing kept => { files with next := some (encoded.take kept) }
  | .cleared => { files with next := some encoded, previous := none }
  | .rotated => ⟨none, some encoded, files.main⟩
  | .installed => ⟨some encoded, none, files.main⟩
  | .completed backupKept => ⟨some encoded, none, if backupKept then files.main else none⟩

def installCompactedCursor (files : Files Bytes) (encoded : Bytes) (stop : CompactionStop) :
    Except String Unit × Files Bytes :=
  (if stop.completes then .ok () else .error "install compacted private-stream cursor",
    stop.files files encoded)

/-- A write that is cut off keeps the first bytes of its record. -/
def writeCursor (files : Files Bytes) (encoded : Bytes) (kept : Option ℕ) :
    Except String Unit × Files Bytes :=
  match kept with
  | none => (.ok (), { files with main := some (files.main.getD [] ++ encoded) })
  | some kept =>
    (.error "write private-stream cursor",
      { files with main := some (files.main.getD [] ++ encoded.take kept) })

def encodeLine (throughMs recordedAtMs : ℤ) : Bytes :=
  CursorRecord.encode ⟨kind.asStr, throughMs, recordedAtMs⟩ ++ [newline]

/-- An append at `recordedAtMs`, of which the write keeps `kept` bytes or the compaction stops at
`stop`. -/
def appendCursor (files : Files Bytes) (throughMs recordedAtMs : ℤ) (kept : Option ℕ)
    (stop : CompactionStop) : Except String Unit × Files Bytes :=
  let (loaded, files) := loadCursorPath parser kind files
  match loaded with
  | .error err => (.error err, files)
  | .ok latest =>
    if latest.any (throughMs < ·) then (.error "private-stream cursor regressed", files)
    else if latest = some throughMs then (.ok (), files)
    else
      let encoded := encodeLine kind throughMs recordedAtMs
      if cursorMaxBytes < encoded.length then
        (.error "private-stream cursor record exceeds byte cap", files)
      else if cursorMaxBytes < (files.main.getD []).length + encoded.length then
        installCompactedCursor files encoded stop
      else writeCursor files encoded kept

/-! ### Runs -/

/-- The files, the times whose append returned, and whether the last append did. -/
structure CursorRun where
  files : Files Bytes := {}
  acknowledged : List ℤ := []
  lastOk : Bool := false

inductive CursorEvent where
  | load
  | append (throughMs recordedAtMs : ℤ) (kept : Option ℕ) (stop : CompactionStop)
deriving DecidableEq, Repr

def cursorStep (state : CursorRun) : CursorEvent → CursorRun
  | .load => { state with files := (loadCursorPath parser kind state.files).2 }
  | .append throughMs recordedAtMs kept stop =>
    match appendCursor parser kind cursorMaxBytes state.files throughMs recordedAtMs kept stop with
    | (.ok (), files) => ⟨files, throughMs :: state.acknowledged, true⟩
    | (.error _, files) => ⟨files, state.acknowledged, false⟩

/-- After an append that returned, a load returns the greatest time acknowledged; no load returns a
time before one that was. -/
def Durable (state : CursorRun) : Prop :=
  (state.lastOk = true → ∃ latest, (loadCursorPath parser kind state.files).1 = .ok (some latest) ∧
      latest ∈ state.acknowledged ∧ ∀ time ∈ state.acknowledged, time ≤ latest) ∧
    ∀ result, (loadCursorPath parser kind state.files).1 = .ok result →
      ∀ time ∈ state.acknowledged, ∃ latest, result = some latest ∧ time ≤ latest

/-- The bytes that the next load reads. -/
def content (files : Files Bytes) : Bytes := files.recover.main.getD []

/-- The last line of a file has no newline. -/
def Unterminated (file : Bytes) : Prop := ∃ byte, file.getLast? = some byte ∧ byte ≠ newline

/-- A time is behind the last one. -/
def Later (latest : Option ℤ) (throughMs : ℤ) : Prop :=
  ∀ time, latest = some time → time < throughMs

/-- An append that goes through has a time that can be read back, and does not write on a line that
was left without its newline. -/
def Safe (state : CursorRun) : CursorEvent → Prop
  | .load => True
  | .append throughMs recordedAtMs kept stop =>
    ∀ latest, readCursor parser kind (content state.files) = .ok latest → Later latest throughMs →
      (encodeLine kind throughMs recordedAtMs).length ≤ cursorMaxBytes →
      if cursorMaxBytes < (content state.files).length +
          (encodeLine kind throughMs recordedAtMs).length then
        stop.completes = true → 0 ≤ throughMs
      else kept = none → 0 ≤ throughMs ∧ ¬ Unterminated (content state.files)

variable {parser kind cursorMaxBytes}

/-! ### One call -/

theorem recover_recover (files : Files Bytes) : files.recover.recover = files.recover := by
  unfold Files.recover
  cases hmain : files.main with
  | some file => simp only [hmain]
  | none => cases files.previous <;> rfl

theorem loadCursorPath_eq (files : Files Bytes) :
    loadCursorPath parser kind files = (readCursor parser kind (content files), files.recover) := by
  unfold loadCursorPath content
  cases hmain : files.recover.main with
  | none =>
    simp only [hmain]
    rfl
  | some file => simp only [hmain, Option.getD_some]

theorem content_recover (files : Files Bytes) : content files.recover = content files := by
  rw [content, recover_recover, content]

/-- A compaction that stops leaves the old content to be read, or the new one. -/
theorem content_compactionStop (files : Files Bytes) (encoded : Bytes) (stop : CompactionStop) :
    (stop.completes = false ∧ content (stop.files files.recover encoded) = content files) ∨
      content (stop.files files.recover encoded) = encoded := by
  obtain ⟨main, beside, previous⟩ := files
  cases stop with
  | started => exact Or.inl ⟨rfl, content_recover _⟩
  | writing kept =>
    refine Or.inl ⟨rfl, ?_⟩
    cases main <;> cases previous <;> rfl
  | cleared =>
    refine Or.inl ⟨rfl, ?_⟩
    cases main <;> cases previous <;> rfl
  | rotated => exact Or.inl ⟨rfl, rfl⟩
  | installed => exact Or.inr rfl
  | completed backupKept => exact Or.inr rfl

/-- An append leaves the content as it is, with an error or because the time is the last one, or it
replaces the content by a record or adds a part of one. -/
theorem appendCursor_cases (files : Files Bytes) (throughMs recordedAtMs : ℤ) (kept : Option ℕ)
    (stop : CompactionStop) {result : Except String Unit} {next : Files Bytes}
    (hcall : appendCursor parser kind cursorMaxBytes files throughMs recordedAtMs kept stop =
      (result, next)) :
    (content next = content files ∧ ((∃ err, result = .error err) ∨
        readCursor parser kind (content files) = .ok (some throughMs))) ∨
      ∃ latest, readCursor parser kind (content files) = .ok latest ∧ Later latest throughMs ∧
        (encodeLine kind throughMs recordedAtMs).length ≤ cursorMaxBytes ∧
        if cursorMaxBytes < (content files).length +
            (encodeLine kind throughMs recordedAtMs).length then
          content next = encodeLine kind throughMs recordedAtMs ∧
            (result = .ok () ↔ stop.completes = true)
        else (result = .ok () ↔ kept = none) ∧
          ∃ piece, piece <+: encodeLine kind throughMs recordedAtMs ∧
            content next = content files ++ piece ∧
            (kept = none → piece = encodeLine kind throughMs recordedAtMs) := by
  unfold appendCursor at hcall
  rw [loadCursorPath_eq] at hcall
  dsimp only at hcall
  cases hread : readCursor parser kind (content files) with
  | error err =>
    rw [hread] at hcall
    obtain ⟨rfl, rfl⟩ := Prod.mk.inj hcall
    exact Or.inl ⟨content_recover files, Or.inl ⟨err, rfl⟩⟩
  | ok latest =>
    rw [hread] at hcall
    dsimp only at hcall
    split_ifs at hcall with hregressed hsame hlong hcompacts
    · obtain ⟨rfl, rfl⟩ := Prod.mk.inj hcall
      exact Or.inl ⟨content_recover files, Or.inl ⟨_, rfl⟩⟩
    · obtain ⟨rfl, rfl⟩ := Prod.mk.inj hcall
      exact Or.inl ⟨content_recover files, Or.inr (congrArg _ hsame)⟩
    · obtain ⟨rfl, rfl⟩ := Prod.mk.inj hcall
      exact Or.inl ⟨content_recover files, Or.inl ⟨_, rfl⟩⟩
    all_goals
      have hlater : Later latest throughMs := by
        rintro time rfl
        simp only [Option.any_some, decide_eq_true_eq, not_lt] at hregressed
        exact lt_of_le_of_ne hregressed fun heq ↦ hsame (congrArg some heq)
    · have hresult : result = .ok () ↔ stop.completes = true := by
        rw [← (Prod.mk.inj hcall).1]
        cases stop.completes <;> simp
      rcases content_compactionStop files (encodeLine kind throughMs recordedAtMs) stop with
        ⟨hstops, hold⟩ | hnew
      · refine Or.inl ⟨(Prod.mk.inj hcall).2 ▸ hold, Or.inl ?_⟩
        cases result with
        | error err => exact ⟨err, rfl⟩
        | ok => rw [hstops] at hresult; simp at hresult
      · refine Or.inr ⟨latest, rfl, hlater, not_lt.mp hlong, ?_⟩
        rw [if_pos (by exact hcompacts)]
        exact ⟨(Prod.mk.inj hcall).2 ▸ hnew, hresult⟩
    · refine Or.inr ⟨latest, rfl, hlater, not_lt.mp hlong, ?_⟩
      rw [if_neg (by exact hcompacts)]
      unfold writeCursor at hcall
      cases kept with
      | none =>
        obtain ⟨rfl, rfl⟩ := Prod.mk.inj hcall
        exact ⟨by simp, _, List.prefix_rfl, rfl, fun _ ↦ rfl⟩
      | some kept =>
        obtain ⟨rfl, rfl⟩ := Prod.mk.inj hcall
        exact ⟨by simp, _, List.take_prefix kept _, rfl, by simp⟩

/-- An append of a later time that fits writes its record. -/
theorem appendCursor_eq {files : Files Bytes} {latest : Option ℤ} {throughMs recordedAtMs : ℤ}
    (kept : Option ℕ) (stop : CompactionStop)
    (hread : readCursor parser kind (content files) = .ok latest) (hlater : Later latest throughMs)
    (hfits : (encodeLine kind throughMs recordedAtMs).length ≤ cursorMaxBytes) :
    appendCursor parser kind cursorMaxBytes files throughMs recordedAtMs kept stop =
      if cursorMaxBytes < (content files).length +
          (encodeLine kind throughMs recordedAtMs).length then
        installCompactedCursor files.recover (encodeLine kind throughMs recordedAtMs) stop
      else writeCursor files.recover (encodeLine kind throughMs recordedAtMs) kept := by
  have hforward : latest.any (throughMs < ·) = false := by
    cases latest with
    | none => rfl
    | some time => exact decide_eq_false (hlater time rfl).le.not_gt
  have hother : latest ≠ some throughMs := fun hsame ↦ lt_irrefl _ (hlater throughMs hsame)
  unfold appendCursor
  rw [loadCursorPath_eq, hread]
  dsimp only
  rw [hforward, if_neg Bool.false_ne_true, if_neg hother, if_neg (not_lt.mpr hfits)]
  rfl

/-! ### What a file can be read as -/

theorem readCursor_of_content {latest : Option ℤ} {file : Bytes}
    (hcontent : Content (cursorReader kind) parser none latest file) :
    readCursor parser kind file = .ok latest ∨ ∃ err, readCursor parser kind file = .error err := by
  unfold readCursor
  rcases hcontent.read with ⟨count, hread⟩ | ⟨err, hread⟩
  · exact Or.inl (by rw [hread]; rfl)
  · exact Or.inr ⟨err, by rw [hread]; rfl⟩

theorem eq_of_readCursor {latest result : Option ℤ} {file : Bytes}
    (hcontent : Content (cursorReader kind) parser none latest file)
    (hread : readCursor parser kind file = .ok result) : latest = result := by
  rcases readCursor_of_content hcontent with hlatest | ⟨err, herror⟩
  · exact Except.ok.inj (hlatest.symm.trans hread)
  · rw [herror] at hread
    cases hread

theorem absorb_later {latest : Option ℤ} {throughMs : ℤ} (recordedAtMs : ℤ)
    (hlater : Later latest throughMs) (hvalid : 0 ≤ throughMs) (lineNo : ℕ) :
    (cursorReader kind).absorb lineNo latest ⟨kind.asStr, throughMs, recordedAtMs⟩ =
      .ok (some throughMs) := by
  have hforward : latest.any (throughMs < ·) = false := by
    cases latest with
    | none => rfl
    | some time => exact decide_eq_false (hlater time rfl).le.not_gt
  simp only [cursorReader, ne_eq, not_true_eq_false, if_false, not_lt.mpr hvalid, hforward,
    Bool.false_eq_true]

theorem absorb_negative (latest : Option ℤ) {throughMs : ℤ} (recordedAtMs : ℤ)
    (hinvalid : throughMs < 0) (lineNo : ℕ) :
    (cursorReader kind).absorb lineNo latest ⟨kind.asStr, throughMs, recordedAtMs⟩ =
      .error "private-stream cursor has invalid through_ms" := by
  simp only [cursorReader, ne_eq, not_true_eq_false, if_false, hinvalid, if_true]

/-- A record with a time below zero stops the reading, with its newline or without. -/
theorem readCursor_negative {latest : Option ℤ} {records : List CursorRecord} {throughMs : ℤ}
    {recordedAtMs : ℤ} (habsorbs : Absorbs (cursorReader kind) none records latest)
    (hinvalid : throughMs < 0) {piece : Bytes}
    (hpiece : piece = CursorRecord.encode ⟨kind.asStr, throughMs, recordedAtMs⟩ ∨
      piece = encodeLine kind throughMs recordedAtMs) :
    ∃ err, readCursor parser kind (written CursorRecord.encode records ++ piece) = .error err := by
  have hlines : lines piece = [CursorRecord.encode ⟨kind.asStr, throughMs, recordedAtMs⟩] := by
    rcases hpiece with rfl | rfl
    · exact lines_unterminated (parser.newline_free _) (parser.encode_ne_nil _)
    · exact lines_terminated (parser.newline_free _) []
  unfold readCursor
  rw [readLines_written_append parser _ habsorbs, hlines, readLines, parser.parse_encode,
    Except.mapError, ok_bind]
  simp only [absorb_negative latest recordedAtMs hinvalid, error_bind]
  exact ⟨_, rfl⟩

/-- What a cut append of a time below zero leaves is read as before, or not at all. -/
theorem content_negative {latest : Option ℤ} {file piece : Bytes} {throughMs recordedAtMs : ℤ}
    (hcontent : Content (cursorReader kind) parser none latest file) (hinvalid : throughMs < 0)
    (hpiece : piece <+: encodeLine kind throughMs recordedAtMs) :
    piece = [] ∨ ∃ err, readCursor parser kind (file ++ piece) = .error err := by
  have hrefused {bytes : Bytes} (hlines : ∃ message, readLines (cursorReader kind) parser 1
      (lines bytes) (none, 0) = .error message) :
      ∃ err, readCursor parser kind bytes = .error err := by
    obtain ⟨message, hmessage⟩ := hlines
    exact ⟨message, by rw [readCursor, hmessage]; rfl⟩
  rcases torn_cases hpiece with rfl | ⟨hne, hshort⟩ | rfl
  · exact Or.inl rfl
  · right
    cases hcontent with
    | whole records habsorbs =>
      by_cases hall : piece = CursorRecord.encode ⟨kind.asStr, throughMs, recordedAtMs⟩
      · exact readCursor_negative habsorbs hinvalid (Or.inl hall)
      · exact hrefused (refused_torn records hne hshort _ hall)
    | unterminated records last habsorbs =>
      exact hrefused (refused_glued records hne hshort _ last)
    | broken _ hbroken => exact hrefused ((hbroken.append _).refused _)
  · right
    cases hcontent with
    | whole records habsorbs => exact readCursor_negative habsorbs hinvalid (Or.inr rfl)
    | unterminated records last habsorbs =>
      exact hrefused ((broken_glued records last _).refused _)
    | broken _ hbroken => exact hrefused ((hbroken.append _).refused _)

/-- A file that is read and whose last line has its newline is a whole log. -/
theorem whole_of_terminated {latest : Option ℤ} {file : Bytes}
    (hcontent : Content (cursorReader kind) parser none latest file)
    (hread : readCursor parser kind file = .ok latest) (hends : ¬ Unterminated file) :
    ∃ records, Absorbs (cursorReader kind) none records latest ∧
      file = written CursorRecord.encode records := by
  cases hcontent with
  | whole records habsorbs => exact ⟨records, habsorbs, rfl⟩
  | unterminated records last habsorbs =>
    refine absurd ⟨(CursorRecord.encode last).getLast (parser.encode_ne_nil last), ?_, ?_⟩ hends
    · rw [List.getLast?_append_of_ne_nil _ (parser.encode_ne_nil last)]
      exact List.getLast?_eq_some_getLast (parser.encode_ne_nil last)
    · exact fun hnewline ↦ parser.newline_free last (hnewline ▸ List.getLast_mem _)
  | broken _ hbroken =>
    have hrefused : ∃ message, readLines (cursorReader kind) parser 1 (lines file) (none, 0) =
        .error message := hbroken.refused _
    obtain ⟨message, hmessage⟩ := hrefused
    rw [readCursor, hmessage] at hread
    cases hread

/-- A record that is appended to a line without its newline cannot be read. -/
theorem readCursor_unterminated {latest : Option ℤ} {file : Bytes} {throughMs recordedAtMs : ℤ}
    (hcontent : Content (cursorReader kind) parser none latest file) (hends : Unterminated file) :
    ∃ err, readCursor parser kind (file ++ encodeLine kind throughMs recordedAtMs) =
      .error err := by
  have hbroken : Broken parser (file ++ encodeLine kind throughMs recordedAtMs) := by
    cases hcontent with
    | whole records habsorbs =>
      exfalso
      obtain ⟨byte, hlast, hbyte⟩ := hends
      rcases List.eq_nil_or_concat records with rfl | ⟨before, last, rfl⟩
      · simp at hlast
      · rw [List.concat_eq_append, written_concat, ← List.append_assoc,
          List.getLast?_append_of_ne_nil _ (by simp)] at hlast
        exact hbyte (by simpa using hlast.symm)
    | unterminated records last habsorbs => exact broken_glued records last _
    | broken _ hbroken => exact hbroken.append _
  obtain ⟨message, hmessage⟩ := hbroken.refused (none, 0)
  exact ⟨message, by rw [readCursor, hmessage]; rfl⟩

/-! ### What a run keeps -/

/-- The file cannot be read, and the last append did not return; or it is read as a time that is not
before any that was acknowledged, and that is one of them if the last append returned. -/
def Keeps (parser : CursorParser) (kind : UserDataStreamKind) (state : CursorRun) : Prop :=
  ((∃ err, readCursor parser kind (content state.files) = .error err) ∧ state.lastOk = false) ∨
    ∃ latest, Content (cursorReader kind) parser none latest (content state.files) ∧
      (∀ time ∈ state.acknowledged, ∃ last, latest = some last ∧ time ≤ last) ∧
      (state.lastOk = true → readCursor parser kind (content state.files) = .ok latest ∧
        ∃ last ∈ state.acknowledged, latest = some last)

theorem Keeps.durable {state : CursorRun} (hkeeps : Keeps parser kind state) :
    Durable parser kind state := by
  rw [Durable, loadCursorPath_eq]
  rcases hkeeps with ⟨⟨err, herror⟩, hlast⟩ | ⟨latest, hcontent, hall, hlast⟩
  · refine ⟨fun hok ↦ ?_, fun result hread ↦ ?_⟩
    · rw [hlast] at hok
      cases hok
    · rw [herror] at hread
      cases hread
  · refine ⟨fun hok ↦ ?_, fun result hread ↦ ?_⟩
    · obtain ⟨hread, last, hmem, rfl⟩ := hlast hok
      refine ⟨last, hread, hmem, fun time htime ↦ ?_⟩
      obtain ⟨other, hother, hle⟩ := hall time htime
      exact Option.some.inj hother ▸ hle
    · exact eq_of_readCursor hcontent hread ▸ hall

/-- The content and what was acknowledged before an append that writes. -/
theorem Keeps.of_readCursor {state : CursorRun} (hkeeps : Keeps parser kind state)
    {latest : Option ℤ} (hread : readCursor parser kind (content state.files) = .ok latest) :
    Content (cursorReader kind) parser none latest (content state.files) ∧
      ∀ time ∈ state.acknowledged, ∃ last, latest = some last ∧ time ≤ last := by
  rcases hkeeps with ⟨⟨err, herror⟩, -⟩ | ⟨found, hcontent, hall, -⟩
  · rw [herror] at hread
    cases hread
  · obtain rfl := eq_of_readCursor hcontent hread
    exact ⟨hcontent, hall⟩

/-- A whole log with a later time. -/
theorem keeps_whole {next : Files Bytes} {acknowledged : List ℤ} {latest : Option ℤ}
    {records : List CursorRecord} {throughMs : ℤ} (returned : Bool)
    (hfile : content next = written CursorRecord.encode records)
    (habsorbs : Absorbs (cursorReader kind) none records (some throughMs))
    (hlater : Later latest throughMs)
    (hall : ∀ time ∈ acknowledged, ∃ last, latest = some last ∧ time ≤ last) :
    Keeps parser kind ⟨next, if returned then throughMs :: acknowledged else acknowledged,
      returned⟩ := by
  have hread : readCursor parser kind (content next) = .ok (some throughMs) := by
    rw [readCursor, hfile, readLines_written parser habsorbs]
    rfl
  refine Or.inr ⟨some throughMs, hfile ▸ .whole records habsorbs, fun time htime ↦ ?_,
    fun hreturned ↦ ⟨hread, throughMs, ?_, rfl⟩⟩
  · have hold : time ∈ acknowledged → ∃ last, some throughMs = some last ∧ time ≤ last := by
      intro hmem
      obtain ⟨last, hlast, hle⟩ := hall time hmem
      exact ⟨throughMs, rfl, hle.trans (hlater last hlast).le⟩
    cases returned with
    | false => exact hold htime
    | true =>
      rcases List.mem_cons.mp htime with rfl | hmem
      · exact ⟨time, rfl, le_rfl⟩
      · exact hold hmem
  · change returned = true at hreturned
    rw [hreturned]
    exact List.mem_cons_self

/-- An append that fails and leaves the content keeps what was acknowledged. -/
theorem Keeps.failed {state : CursorRun} (hkeeps : Keeps parser kind state) {next : Files Bytes}
    (hsame : content next = content state.files) :
    Keeps parser kind ⟨next, state.acknowledged, false⟩ := by
  rcases hkeeps with ⟨⟨err, herror⟩, -⟩ | ⟨latest, hcontent, hall, -⟩
  · exact Or.inl ⟨⟨err, (congrArg _ hsame).trans herror⟩, rfl⟩
  · exact Or.inr ⟨latest, hsame.symm ▸ hcontent, hall, by simp⟩

section Append

variable {state : CursorRun} {throughMs recordedAtMs : ℤ} {kept : Option ℕ} {stop : CompactionStop}
  {latest : Option ℤ} {result : Except String Unit} {next : Files Bytes}

/-- A step with the outcome of its append. -/
theorem cursorStep_append (hcall : appendCursor parser kind cursorMaxBytes state.files throughMs
      recordedAtMs kept stop = (result, next)) :
    (result = .ok () ∧
        cursorStep parser kind cursorMaxBytes state (.append throughMs recordedAtMs kept stop) =
          ⟨next, throughMs :: state.acknowledged, true⟩) ∨
      ((∃ err, result = .error err) ∧
        cursorStep parser kind cursorMaxBytes state (.append throughMs recordedAtMs kept stop) =
          ⟨next, state.acknowledged, false⟩) := by
  rw [cursorStep, hcall]
  cases result with
  | ok => exact Or.inl ⟨rfl, rfl⟩
  | error err => exact Or.inr ⟨⟨err, rfl⟩, rfl⟩

theorem absorbs_single (hvalid : 0 ≤ throughMs) :
    Absorbs (cursorReader kind) none [⟨kind.asStr, throughMs, recordedAtMs⟩] (some throughMs) :=
  ⟨some throughMs, absorb_later recordedAtMs (by simp [Later]) hvalid, rfl⟩

theorem written_single :
    encodeLine kind throughMs recordedAtMs =
      written CursorRecord.encode [⟨kind.asStr, throughMs, recordedAtMs⟩] := by
  simp [encodeLine, written]

/-- A file that was replaced by a record keeps what was acknowledged. -/
theorem keeps_compacted (hnext : content next = encodeLine kind throughMs recordedAtMs)
    (hlater : Later latest throughMs)
    (hall : ∀ time ∈ state.acknowledged, ∃ last, latest = some last ∧ time ≤ last)
    (returned : Bool) (hvalid : returned = true → 0 ≤ throughMs) :
    Keeps parser kind ⟨next, if returned then throughMs :: state.acknowledged
      else state.acknowledged, returned⟩ := by
  by_cases hread : 0 ≤ throughMs
  · exact keeps_whole returned (hnext.trans written_single) (absorbs_single hread) hlater hall
  · cases returned with
    | true => exact absurd (hvalid rfl) hread
    | false =>
      refine Or.inl ⟨?_, rfl⟩
      have hnone : Absorbs (cursorReader kind) none [] none := rfl
      have herror : ∃ err, readCursor parser kind (written CursorRecord.encode [] ++
          encodeLine kind throughMs recordedAtMs) = .error err :=
        readCursor_negative hnone (not_le.mp hread) (Or.inr rfl)
      exact hnext.symm ▸ herror

/-- A file to which a part of a record was added keeps what was acknowledged. -/
theorem keeps_torn {piece : Bytes}
    (hcontent : Content (cursorReader kind) parser none latest (content state.files))
    (hlater : Later latest throughMs)
    (hall : ∀ time ∈ state.acknowledged, ∃ last, latest = some last ∧ time ≤ last)
    (hpiece : piece <+: encodeLine kind throughMs recordedAtMs)
    (hnext : content next = content state.files ++ piece) :
    Keeps parser kind ⟨next, state.acknowledged, false⟩ := by
  by_cases hread : 0 ≤ throughMs
  · rcases hcontent.torn (absorb_later recordedAtMs hlater hread) hpiece with
      hold | hnew | ⟨message, hmessage⟩
    · exact Or.inr ⟨latest, hnext.symm ▸ hold, hall, by simp⟩
    · refine Or.inr ⟨some throughMs, hnext.symm ▸ hnew, fun time htime ↦ ?_, by simp⟩
      obtain ⟨last, hlast, hle⟩ := hall time htime
      exact ⟨throughMs, rfl, hle.trans (hlater last hlast).le⟩
    · refine Or.inl ⟨⟨message, ?_⟩, rfl⟩
      rw [readCursor]
      change Except.map Prod.fst (readLines _ _ _ (lines (content next)) _) = _
      rw [hnext, hmessage]
      rfl
  · rcases content_negative hcontent (not_le.mp hread) hpiece with rfl | herror
    · rw [List.append_nil] at hnext
      exact Or.inr ⟨latest, hnext.symm ▸ hcontent, hall, by simp⟩
    · exact Or.inl ⟨hnext.symm ▸ herror, rfl⟩

end Append

theorem keeps_step (state : CursorRun) (event : CursorEvent) (hkeeps : Keeps parser kind state)
    (hsafe : Safe parser kind cursorMaxBytes state event) :
    Keeps parser kind (cursorStep parser kind cursorMaxBytes state event) := by
  cases event with
  | load =>
    rw [cursorStep, loadCursorPath_eq]
    simpa only [Keeps, content_recover] using hkeeps
  | append throughMs recordedAtMs kept stop =>
    rcases hcall : appendCursor parser kind cursorMaxBytes state.files throughMs recordedAtMs kept
      stop with ⟨result, next⟩
    rcases appendCursor_cases state.files throughMs recordedAtMs kept stop hcall with
      ⟨hsame, houtcome⟩ | ⟨latest, hread, hlater, hfits, hwrites⟩
    · rcases cursorStep_append hcall with ⟨hok, hstep⟩ | ⟨-, hstep⟩
      · rw [hstep]
        have hlast : readCursor parser kind (content state.files) = .ok (some throughMs) := by
          rcases houtcome with ⟨err, herror⟩ | hlast
          · rw [hok] at herror
            cases herror
          · exact hlast
        obtain ⟨hcontent, hall⟩ := hkeeps.of_readCursor hlast
        refine Or.inr ⟨some throughMs, hsame.symm ▸ hcontent, fun time htime ↦ ?_, fun _ ↦
          ⟨(congrArg _ hsame).trans hlast, throughMs, List.mem_cons_self, rfl⟩⟩
        rcases List.mem_cons.mp htime with rfl | hmem
        · exact ⟨time, rfl, le_rfl⟩
        · exact hall time hmem
      · rw [hstep]
        exact hkeeps.failed hsame
    · obtain ⟨hcontent, hall⟩ := hkeeps.of_readCursor hread
      have hcondition := hsafe latest hread hlater hfits
      by_cases hcompacts : cursorMaxBytes < (content state.files).length +
          (encodeLine kind throughMs recordedAtMs).length
      · rw [if_pos hcompacts] at hwrites hcondition
        obtain ⟨hnext, hresult⟩ := hwrites
        rcases cursorStep_append hcall with ⟨hok, hstep⟩ | ⟨-, hstep⟩
        · rw [hstep]
          exact keeps_compacted hnext hlater hall true
            fun _ ↦ hcondition (hresult.mp hok)
        · rw [hstep]
          exact keeps_compacted hnext hlater hall false (by simp)
      · rw [if_neg hcompacts] at hwrites hcondition
        obtain ⟨hresult, piece, hpiece, hnext, hwhole⟩ := hwrites
        rcases cursorStep_append hcall with ⟨hok, hstep⟩ | ⟨-, hstep⟩
        · have hkept := hresult.mp hok
          obtain ⟨hvalid, hends⟩ := hcondition hkept
          obtain ⟨records, habsorbs, hfile⟩ := whole_of_terminated hcontent hread hends
          rw [hstep]
          refine keeps_whole true ?_
            (absorbs_concat.mpr ⟨latest, habsorbs, absorb_later recordedAtMs hlater hvalid⟩)
            hlater hall
          rw [hnext, hwhole hkept, hfile, written_concat]
          rfl
        · rw [hstep]
          exact keeps_torn hcontent hlater hall hpiece hnext

/-- After an append that returned, a file that cannot be read is not durable. -/
theorem not_durable_of_error {files : Files Bytes} {acknowledged : List ℤ}
    (herror : ∃ err, readCursor parser kind (content files) = .error err) :
    ¬ Durable parser kind ⟨files, acknowledged, true⟩ := by
  rintro ⟨hlast, -⟩
  obtain ⟨err, herror⟩ := herror
  obtain ⟨latest, hread, -⟩ := hlast rfl
  rw [loadCursorPath_eq] at hread
  dsimp only at hread
  rw [herror] at hread
  cases hread

/-- An append that is not safe returns and leaves a file that cannot be read. -/
theorem not_durable_of_not_safe {state : CursorRun} {event : CursorEvent}
    (hkeeps : Keeps parser kind state) (hnotSafe : ¬ Safe parser kind cursorMaxBytes state event) :
    ¬ Durable parser kind (cursorStep parser kind cursorMaxBytes state event) := by
  cases event with
  | load => exact absurd trivial hnotSafe
  | append throughMs recordedAtMs kept stop =>
    simp only [Safe, not_forall] at hnotSafe
    obtain ⟨latest, hread, hlater, hfits, hnotSafe⟩ := hnotSafe
    obtain ⟨hcontent, -⟩ := hkeeps.of_readCursor hread
    have hline : encodeLine kind throughMs recordedAtMs ≠ [] := by simp [encodeLine]
    rw [cursorStep, appendCursor_eq kept stop hread hlater hfits]
    by_cases hcompacts : cursorMaxBytes < (content state.files).length +
        (encodeLine kind throughMs recordedAtMs).length
    · rw [if_pos hcompacts] at hnotSafe ⊢
      obtain ⟨hcompletes, hinvalid⟩ := Classical.not_imp.mp hnotSafe
      have hnone : Absorbs (cursorReader kind) none [] none := rfl
      cases stop with
      | completed backupKept =>
        refine not_durable_of_error ?_
        exact readCursor_negative hnone (not_le.mp hinvalid) (Or.inr rfl)
      | _ => cases hcompletes
    · rw [if_neg hcompacts] at hnotSafe ⊢
      obtain ⟨rfl, hbad⟩ := Classical.not_imp.mp hnotSafe
      refine not_durable_of_error ?_
      change ∃ err, readCursor parser kind
        (content state.files ++ encodeLine kind throughMs recordedAtMs) = .error err
      rcases not_and_or.mp hbad with hinvalid | hends
      · exact (content_negative hcontent (not_le.mp hinvalid) List.prefix_rfl).resolve_left hline
      · exact readCursor_unterminated hcontent (not_not.mp hends)

theorem keeps_start : Keeps parser kind {} :=
  Or.inr ⟨none, .whole [] rfl, by simp, by simp⟩

variable (parser kind cursorMaxBytes)

/-- The times acknowledged are durable in every state of a run just if every append is safe. -/
theorem cursor_durable_iff (events : List CursorEvent) :
    (∀ before, before <+: events →
        Durable parser kind (run (cursorStep parser kind cursorMaxBytes) {} before)) ↔
      Along (cursorStep parser kind cursorMaxBytes) (Safe parser kind cursorMaxBytes) {}
        events := by
  refine law_iff_along (Keeps parser kind) (Durable parser kind) (fun _ hkeeps ↦ hkeeps.durable)
    (fun state event hkeeps _ hsafe ↦ keeps_step state event hkeeps hsafe) ?_ keeps_start
    (show Along _ (fun _ _ ↦ True) ({} : CursorRun) events from
      (along_iff _ _).mpr fun _ _ _ _ ↦ trivial)
  intro state event hkeeps _ hdurable
  by_contra hnotSafe
  exact not_durable_of_not_safe hkeeps hnotSafe hdurable

end Cursor

/-! ### A newline that is lost -/

/-- The first append is cut off before its newline. -/
def cutEvent : CursorEvent :=
  .append 5 1 (some (CursorRecord.encode ⟨"spot", 5, 1⟩).length) .started

theorem cutEvent_safe (parser : CursorParser) : Safe parser .spot 1000 {} cutEvent := by
  intro latest _ _ _
  split_ifs with hcompacts
  · exact fun hcompletes ↦ absurd hcompletes (by decide)
  · exact fun hkept ↦ absurd hkept (by simp)

theorem content_cutEvent (parser : CursorParser) :
    content (cursorStep parser .spot 1000 {} cutEvent).files =
      CursorRecord.encode ⟨"spot", 5, 1⟩ := by
  have hread : readCursor parser .spot (content {}) = .ok none := rfl
  have hfits : (encodeLine .spot 5 1).length ≤ 1000 := by decide +kernel
  rw [cutEvent, cursorStep, appendCursor_eq _ _ hread (by simp [Later]) hfits,
    if_neg (by decide +kernel)]
  exact List.take_left

theorem readCursor_cutEvent (parser : CursorParser) :
    readCursor parser .spot (CursorRecord.encode ⟨"spot", 5, 1⟩) = .ok (some 5) := by
  have habsorbs : Absorbs (cursorReader .spot) none ([] ++ [⟨"spot", 5, 1⟩]) (some 5) :=
    ⟨some 5, fun _ ↦ rfl, rfl⟩
  have hread := readLines_open parser habsorbs
  rw [written_nil, List.nil_append] at hread
  rw [readCursor, hread]
  rfl

/-- The first record loses its newline, the second append returns, and nothing can be loaded any
more. -/
theorem lost_newline_breaks_cursor :
    ¬ Durable exactCursorParser .spot (run (cursorStep exactCursorParser .spot 1000) {}
      [cutEvent, .append 6 2 none .started]) := by
  have hkeeps := keeps_step {} cutEvent keeps_start (cutEvent_safe exactCursorParser)
  rw [run_cons, run_cons, run_nil]
  refine not_durable_of_not_safe hkeeps fun hsafe ↦ ?_
  have hread := (congrArg (readCursor exactCursorParser .spot)
    (content_cutEvent exactCursorParser)).trans (readCursor_cutEvent exactCursorParser)
  have hlater : Later (some 5) 6 := by
    rintro time hfive
    obtain rfl := Option.some.inj hfive
    decide
  have hcondition := hsafe (some 5) hread hlater (by decide +kernel)
  rw [content_cutEvent, if_neg (by decide +kernel)] at hcondition
  exact (hcondition rfl).2 ⟨125, by decide +kernel, by decide⟩

end Bongus.Engine.PrivateCursor
