import Bongus.Ipc.JournalFiles
import Bongus.Lib.Runs
import Bongus.Lib.SplicedLog

/-!
# The journal of execution snapshots

Every change of the durable state of the engine is written as a snapshot on a line of its own, at
the end of the journal or, where the journal has grown, in place of it
(`appendExecutionSnapshotAtLimit`). A start takes the last line (`loadExecutionState`) and stops at
a line it cannot read. A write can fail at each of its stages, after any number of its bytes, and
the engine goes on writing afterwards; a write can also be cut off by a crash.

A snapshot whose write succeeded is the one a start finds exactly if the write replaced the journal
or the journal was made of whole lines before it; and a start after a crash fails or finds the
snapshot from before or the new one (`execution_state_durable_iff`). Behind a line that was cut off the
next snapshot is lost, although its write succeeds (`torn_line_loses_snapshot`).

The text of a snapshot is a parameter with what is known of it: `SpliceParser` says that a line is
read back, and that a line which was cut off, or to which another one is glued, is refused, because
the brace it opens with is not closed.
-/

set_option autoImplicit false
set_option relaxedAutoImplicit false

namespace Bongus.Engine

open Lib Lib.AtomicReplace Lib.LineLog Lib.Runs Ipc

/-- The bytes kept free for the transitions of what is under way. -/
def executionStateTransitionReserveBytes : ℕ := 64 * 1024

/-- The operations on files that a write is made of. -/
inductive WriteStage where
  | directory
  | inspect
  | openLog
  | writeLog
  | syncLog
  | createNext
  | writeNext
  | syncNext
  | clearPrevious
  | rotate
  | install
  | dropPrevious
deriving DecidableEq, Repr

/-- An operation that fails, after a number of bytes where it writes. Where the new journal cannot be
put in place, `stuck` says that the old one cannot be brought back either. -/
structure WriteFault where
  stage : WriteStage
  count : ℕ := 0
  stuck : Bool := false
  message : String := "input/output error"

structure SnapshotWrite (Snapshot : Type) where
  snapshot : Snapshot
  maxBytes : ℕ
  fault : Option WriteFault := none

/-- The fault of a stage, if that is where the write fails. -/
def failsAt (fault : Option WriteFault) (stage : WriteStage) : Option WriteFault :=
  fault.filter fun fault ↦ fault.stage = stage

section Journal

variable {Snapshot : Type} (encode : Snapshot → Bytes) (validate : Snapshot → Except String Unit)
variable (parser : SpliceParser encode)

/-! ### Writing -/

/-- A snapshot at the end of the journal. -/
def appendLine (files : Files Bytes) (encoded : Bytes) (fault : Option WriteFault) :
    Except String Unit × Files Bytes :=
  match failsAt fault .openLog with
  | some fault => (.error ("append execution state journal: " ++ fault.message), files)
  | none =>
    match failsAt fault .writeLog with
    | some fault => (.error ("write execution state snapshot: " ++ fault.message),
        appendBytes files (encoded.take fault.count))
    | none =>
      match failsAt fault .syncLog with
      | some fault => (.error ("sync execution state snapshot: " ++ fault.message),
          appendBytes files encoded)
      | none => (.ok (), appendBytes files encoded)

/-- The renames of a replacement, once the new journal stands beside the old one. A new journal that
cannot be put in place brings the old one back. -/
def installNext (files : Files Bytes) (encoded : Bytes) (fault : Option WriteFault) :
    Except String Unit × Files Bytes :=
  match (failsAt fault .clearPrevious).filter fun _ ↦ files.previous.isSome with
  | some fault => (.error ("remove stale execution state checkpoint: " ++ fault.message),
      { files with next := some encoded })
  | none =>
    match (failsAt fault .rotate).filter fun _ ↦ files.main.isSome with
    | some fault => (.error ("rotate execution state journal: " ++ fault.message),
        { files with next := some encoded, previous := none })
    | none =>
      match failsAt fault .install with
      | some fault => (.error ("install compacted execution state: " ++ fault.message),
          if fault.stuck then ⟨none, some encoded, files.main⟩
          else { files with next := some encoded, previous := none })
      | none =>
        (.ok (), ⟨some encoded, none, (failsAt fault .dropPrevious).bind fun _ ↦ files.main⟩)

/-- A snapshot in place of the journal. -/
def installCompactedExecutionSnapshot (files : Files Bytes) (encoded : Bytes) (maxBytes : ℕ)
    (fault : Option WriteFault) : Except String Unit × Files Bytes :=
  if encoded.length > maxBytes then
    (.error "compacted execution state exceeds configured cap", files)
  else
    match failsAt fault .createNext with
    | some fault => (.error ("create compacted execution state: " ++ fault.message), files)
    | none =>
      match failsAt fault .writeNext with
      | some fault => (.error ("write compacted execution state: " ++ fault.message),
          { files with next := some (encoded.take fault.count) })
      | none =>
        match failsAt fault .syncNext with
        | some fault => (.error ("sync compacted execution state: " ++ fault.message),
            { files with next := some encoded })
        | none => installNext files encoded fault

/-- The journal is replaced when it has grown to half of its cap, or when the new line would take
what is kept free. -/
def compactBeforeWrite (files : Files Bytes) (snapshotBytes maxBytes : ℕ) : Bool :=
  maxBytes / 2 ≤ fileLen files ||
    maxBytes < fileLen files + snapshotBytes + executionStateTransitionReserveBytes

def SnapshotWrite.encoded (write : SnapshotWrite Snapshot) : Bytes :=
  encode write.snapshot ++ [newline]

/-- The write replaces the journal. -/
def SnapshotWrite.compacts (files : Files Bytes) (write : SnapshotWrite Snapshot) : Bool :=
  compactBeforeWrite files (write.encoded encode).length write.maxBytes

def appendExecutionSnapshotAtLimit (files : Files Bytes) (write : SnapshotWrite Snapshot) :
    Except String Unit × Files Bytes :=
  if write.maxBytes ≤ 2 * executionStateTransitionReserveBytes then
    (.error ("execution state cap " ++ toString write.maxBytes ++
      " does not preserve the transition reserve"), files)
  else
    match failsAt write.fault .directory with
    | some fault => (.error ("create execution state journal directory: " ++ fault.message), files)
    | none =>
      let encoded := write.encoded encode
      if write.maxBytes < encoded.length + executionStateTransitionReserveBytes then
        (.error ("execution state snapshot exceeds bounded journal: snapshot=" ++
          toString encoded.length ++ ", transition_reserve=" ++
          toString executionStateTransitionReserveBytes ++ ", limit=" ++
          toString write.maxBytes), files)
      else
        match failsAt write.fault .inspect with
        | some fault => (.error ("inspect execution state journal: " ++ fault.message), files)
        | none =>
          if write.compacts encode files then
            installCompactedExecutionSnapshot files encoded write.maxBytes write.fault
          else appendLine files encoded write.fault

/-! ### Loading -/

/-- The lines of the journal from number `lineNo` on: what is returned, and the snapshot that is
taken over. A line that is refused stops the reading, and the last one before it is taken over. -/
def loadLines : ℕ → List Bytes → Option Snapshot → Except String Unit × Option Snapshot
  | _, [], latest => (.ok (), latest)
  | lineNo, line :: rest, latest =>
    match parser.parse line with
    | .ok none => loadLines (lineNo + 1) rest latest
    | .error err =>
      (.error ("invalid execution state journal line " ++ toString lineNo ++ ": " ++ err), latest)
    | .ok (some snapshot) =>
      match validate snapshot with
      | .error err =>
        (.error ("invalid execution state journal line " ++ toString lineNo ++ ": " ++ err), latest)
      | .ok () => loadLines (lineNo + 1) rest (some snapshot)

def loadExecutionState (files : Files Bytes) : Except String Unit × Option Snapshot :=
  loadLines encode validate parser 1 (lines (content files.recover)) none

/-! ### Crashes and runs -/

/-- The files, and how much of the journal is known to be on the disk. -/
structure JournalDisk where
  files : Files Bytes := {}
  synced : ℕ := 0

namespace JournalDisk

variable (disk : JournalDisk)

/-- The disk after a write. -/
def write (write : SnapshotWrite Snapshot) : JournalDisk :=
  let (outcome, files) := appendExecutionSnapshotAtLimit encode disk.files write
  ⟨files, if outcome = .ok () then fileLen files else disk.synced⟩

/-- The files with the journal cut off. -/
def cut (kept : ℕ) : Files Bytes :=
  { disk.files with main := disk.files.main.map (List.take kept) }

/-- What a crash inside a write leaves: the journal without some of what was not synced, the journal
with part of the new line, or a replacement that was left half done. -/
inductive Crashed (write : SnapshotWrite Snapshot) : Files Bytes → Prop
  | before (kept : ℕ) (hkept : disk.synced ≤ kept) : Crashed write (disk.cut kept)
  | appending (happends : write.compacts encode disk.files = false) (piece : Bytes)
      (hpiece : piece <+: write.encoded encode) : Crashed write (appendBytes disk.files piece)
  | compacting (hcompacts : write.compacts encode disk.files = true) (kept : ℕ)
      (hkept : disk.synced ≤ kept) (stopped : Files Bytes)
      (hstopped : Interrupted (disk.cut kept) (write.encoded encode) stopped) :
      Crashed write stopped

/-- The runs of the journal: it begins without files, snapshots are written, and the engine is
started again after a crash. -/
inductive Reached : JournalDisk → Prop
  | empty : Reached {}
  | wrote (disk : JournalDisk) (write : SnapshotWrite Snapshot) (hreached : Reached disk) :
      Reached (disk.write encode write)
  | restarted (disk : JournalDisk) (write : SnapshotWrite Snapshot) (stopped : Files Bytes)
      (hreached : Reached disk) (hcrashed : disk.Crashed encode write stopped) :
      Reached ⟨stopped.recover, fileLen stopped.recover⟩

end JournalDisk

end Journal

/-! ### Reading lines -/

section Reading

variable {Snapshot : Type} {encode : Snapshot → Bytes} {validate : Snapshot → Except String Unit}
variable {parser : SpliceParser encode}

theorem loadLines_written_append (hvalid : ∀ snapshot, validate snapshot = .ok ())
    (snapshots : List Snapshot) (rest : Bytes) (lineNo : ℕ) (latest : Option Snapshot) :
    loadLines encode validate parser lineNo (lines (written encode snapshots ++ rest)) latest =
      loadLines encode validate parser (lineNo + snapshots.length) (lines rest)
        (snapshots.getLast?.or latest) := by
  induction snapshots generalizing lineNo latest with
  | nil => rfl
  | cons snapshot more ih =>
    rw [written_cons, List.append_assoc, List.cons_append,
      lines_terminated (parser.newline_free snapshot), loadLines, parser.parse_encode]
    dsimp only
    rw [hvalid]
    dsimp only
    rw [ih, List.length_cons, Nat.add_right_comm, Nat.add_assoc lineNo]
    congr 1
    rw [List.getLast?_cons]
    cases more.getLast? <;> rfl

theorem loadLines_refused {content : List Bytes} {line : Bytes} {message : String}
    (hline : line ∈ content) (hparse : parser.parse line = .error message) (lineNo : ℕ)
    (latest : Option Snapshot) :
    ∃ message, (loadLines encode validate parser lineNo content latest).1 = .error message := by
  induction content generalizing lineNo latest with
  | nil => cases hline
  | cons first rest ih =>
    rw [loadLines]
    split
    · rename_i hfirst
      rcases List.mem_cons.mp hline with rfl | hrest
      · rw [hparse] at hfirst
        cases hfirst
      · exact ih hrest _ _
    · exact ⟨_, rfl⟩
    · rename_i snapshot hfirst
      rcases List.mem_cons.mp hline with rfl | hrest
      · rw [hparse] at hfirst
        cases hfirst
      · split
        · exact ⟨_, rfl⟩
        · exact ih hrest _ _

theorem loadLines_of_refused {file : Bytes} (hrefused : Refused parser.toLineParser file) :
    ∃ message, (loadLines encode validate parser 1 (lines file) none).1 = .error message := by
  obtain ⟨line, hline, message, hparse⟩ := hrefused
  exact loadLines_refused hline hparse 1 none

/-- The last line of a whole journal is found, with or without its newline. -/
theorem loadLines_last (hvalid : ∀ snapshot, validate snapshot = .ok ()) {file : Bytes}
    (hwhole : Whole encode file) (snapshot : Snapshot) {piece : Bytes}
    (hpiece : piece = encode snapshot ∨ piece = encode snapshot ++ [newline]) :
    loadLines encode validate parser 1 (lines (file ++ piece)) none = (.ok (), some snapshot) := by
  obtain ⟨snapshots, rfl⟩ := hwhole
  have hlines : lines piece = [encode snapshot] := by
    rcases hpiece with rfl | rfl
    · exact lines_unterminated (parser.newline_free snapshot) (parser.encode_ne_nil snapshot)
    · exact lines_terminated (parser.newline_free snapshot) []
  rw [loadLines_written_append hvalid, hlines, loadLines, parser.parse_encode]
  dsimp only
  rw [hvalid]
  rfl

end Reading

/-! ### What a write leaves -/

section Writes

variable {Snapshot : Type} {encode : Snapshot → Bytes}

/-- What a write leaves of the files, whether it succeeds or fails. -/
inductive WriteLeft (files : Files Bytes) (encoded : Bytes) : Files Bytes → Prop
  | kept (left : Files Bytes) (hmain : left.main = files.main)
      (hprevious : left.previous = files.previous ∨ left.previous = none) :
      WriteLeft files encoded left
  | stranded (left : Files Bytes) (hmain : left.main = none)
      (hprevious : left.previous = files.main) : WriteLeft files encoded left
  | appended (piece : Bytes) (hpiece : piece <+: encoded) :
      WriteLeft files encoded (appendBytes files piece)
  | replaced (left : Files Bytes) (hmain : left.main = some encoded) :
      WriteLeft files encoded left

theorem left_appendLine (files : Files Bytes) (encoded : Bytes) (fault : Option WriteFault) :
    WriteLeft files encoded (appendLine files encoded fault).2 := by
  unfold appendLine
  split
  · exact .kept files rfl (Or.inl rfl)
  · split
    · exact .appended _ (List.take_prefix _ _)
    · split <;> exact .appended _ List.prefix_rfl

theorem left_installNext (files : Files Bytes) (encoded : Bytes) (fault : Option WriteFault) :
    WriteLeft files encoded (installNext files encoded fault).2 := by
  unfold installNext
  split
  · exact .kept _ rfl (Or.inl rfl)
  · split
    · exact .kept _ rfl (Or.inr rfl)
    · split
      · dsimp only
        split
        · exact .stranded _ rfl rfl
        · exact .kept _ rfl (Or.inr rfl)
      · exact .replaced _ rfl

theorem left_installCompactedExecutionSnapshot (files : Files Bytes) (encoded : Bytes)
    (maxBytes : ℕ) (fault : Option WriteFault) :
    WriteLeft files encoded
      (installCompactedExecutionSnapshot files encoded maxBytes fault).2 := by
  unfold installCompactedExecutionSnapshot
  split
  · exact .kept _ rfl (Or.inl rfl)
  · split
    · exact .kept _ rfl (Or.inl rfl)
    · split
      · exact .kept _ rfl (Or.inl rfl)
      · split
        · exact .kept _ rfl (Or.inl rfl)
        · exact left_installNext files encoded fault

theorem left_appendExecutionSnapshotAtLimit (files : Files Bytes)
    (write : SnapshotWrite Snapshot) :
    WriteLeft files (write.encoded encode)
      (appendExecutionSnapshotAtLimit encode files write).2 := by
  unfold appendExecutionSnapshotAtLimit
  split
  · exact .kept _ rfl (Or.inl rfl)
  · split
    · exact .kept _ rfl (Or.inl rfl)
    · dsimp only
      split
      · exact .kept _ rfl (Or.inl rfl)
      · split
        · exact .kept _ rfl (Or.inl rfl)
        · split
          · exact left_installCompactedExecutionSnapshot files _ _ _
          · exact left_appendLine files _ _

theorem of_appendLine (files : Files Bytes) (encoded : Bytes) (fault : Option WriteFault) :
    (appendLine files encoded fault).1 = .ok () →
      (appendLine files encoded fault).2 = appendBytes files encoded := by
  unfold appendLine
  split
  · exact nofun
  · split
    · exact nofun
    · split
      · exact nofun
      · exact fun _ ↦ rfl

theorem of_installNext (files : Files Bytes) (encoded : Bytes) (fault : Option WriteFault) :
    (installNext files encoded fault).1 = .ok () →
      (installNext files encoded fault).2.main = some encoded := by
  unfold installNext
  split
  · exact nofun
  · split
    · exact nofun
    · split
      · exact nofun
      · exact fun _ ↦ rfl

theorem of_installCompactedExecutionSnapshot (files : Files Bytes) (encoded : Bytes)
    (maxBytes : ℕ) (fault : Option WriteFault) :
    (installCompactedExecutionSnapshot files encoded maxBytes fault).1 = .ok () →
      (installCompactedExecutionSnapshot files encoded maxBytes fault).2.main = some encoded := by
  unfold installCompactedExecutionSnapshot
  split
  · exact nofun
  · split
    · exact nofun
    · split
      · exact nofun
      · split
        · exact nofun
        · exact of_installNext files encoded fault

/-- A write that succeeds has replaced the journal, or has put its whole line at the end of it. -/
theorem of_appendExecutionSnapshotAtLimit (files : Files Bytes) (write : SnapshotWrite Snapshot) :
    (appendExecutionSnapshotAtLimit encode files write).1 = .ok () →
      (write.compacts encode files = true ∧
          (appendExecutionSnapshotAtLimit encode files write).2.main =
            some (write.encoded encode)) ∨
        (write.compacts encode files = false ∧
          (appendExecutionSnapshotAtLimit encode files write).2 =
            appendBytes files (write.encoded encode)) := by
  unfold appendExecutionSnapshotAtLimit
  split
  · exact nofun
  · split
    · exact nofun
    · dsimp only
      split
      · exact nofun
      · split
        · exact nofun
        · split
          · rename_i hcompacts
            intro hok
            exact Or.inl ⟨hcompacts, of_installCompactedExecutionSnapshot files _ _ _ hok⟩
          · rename_i happends
            intro hok
            exact Or.inr ⟨Bool.eq_false_iff.mpr happends, of_appendLine files _ _ hok⟩

end Writes

/-! ### Runs -/

section Runs

variable {Snapshot : Type} {encode : Snapshot → Bytes} {validate : Snapshot → Except String Unit}

/-- The journal is made of lines that were written, and so is the one a start takes. -/
structure Kept (encode : Snapshot → Bytes) (files : Files Bytes) : Prop where
  log : Log encode (content files)
  recovered : Log encode (content files.recover)

variable (parser : SpliceParser encode)

theorem content_appendBytes (files : Files Bytes) (piece : Bytes) :
    content (appendBytes files piece) = content files ++ piece := rfl

theorem content_of_main {files : Files Bytes} {bytes : Bytes} (hmain : files.main = some bytes) :
    content files = bytes := congrArg (·.getD []) hmain

theorem content_recover_of_settled {files : Files Bytes} (hsettled : files.Settled) :
    content files.recover = content files :=
  congrArg (·.getD []) (recover_main_of_settled hsettled)

theorem content_recover_of_missing {files : Files Bytes} (hmain : files.main = none) :
    content files.recover = files.previous.getD [] := by
  unfold Files.recover content
  rw [hmain]

theorem Kept.of_settled {files : Files Bytes} (hlog : Log encode (content files))
    (hsettled : files.Settled) : Kept encode files :=
  ⟨hlog, by rwa [content_recover_of_settled hsettled]⟩

/-- Without a journal there is nothing in it. -/
theorem Kept.of_missing {files : Files Bytes} (hmain : files.main = none)
    (hprevious : Log encode (files.previous.getD [])) : Kept encode files := by
  refine ⟨?_, ?_⟩
  · have hcontent : content files = [] := congrArg (·.getD []) hmain
    rw [hcontent]
    exact log_nil
  · rwa [content_recover_of_missing hmain]

/-- The journal is there as before, and the backup is there or was removed. -/
theorem Kept.of_main {files left : Files Bytes} (hkept : Kept encode files)
    (hmain : left.main = files.main)
    (hprevious : left.previous = files.previous ∨ left.previous = none) : Kept encode left := by
  cases hfiles : files.main with
  | none =>
    rw [hfiles] at hmain
    refine .of_missing hmain ?_
    rcases hprevious with hsame | hnone
    · rw [hsame, ← content_recover_of_missing hfiles]
      exact hkept.recovered
    · rw [hnone]
      exact log_nil
  | some bytes =>
    rw [hfiles] at hmain
    refine .of_settled ?_ (Or.inl (by rw [hmain]; rfl))
    rw [content_of_main hmain, ← content_of_main hfiles]
    exact hkept.log

include parser in
theorem log_encoded (write : SnapshotWrite Snapshot) : Log encode (write.encoded encode) := by
  have hlog := log_written parser.encode_ne_nil [write.snapshot]
  rwa [written_cons, written_nil] at hlog

include parser in
theorem Kept.replaced {files : Files Bytes} {write : SnapshotWrite Snapshot}
    (hmain : files.main = some (write.encoded encode)) : Kept encode files := by
  refine .of_settled ?_ (Or.inl (by rw [hmain]; rfl))
  rw [content_of_main hmain]
  exact log_encoded parser write

include parser in
theorem Kept.left {files left : Files Bytes} {write : SnapshotWrite Snapshot}
    (hkept : Kept encode files) (hleft : WriteLeft files (write.encoded encode) left) :
    Kept encode left := by
  cases hleft with
  | kept _ hmain hprevious => exact hkept.of_main hmain hprevious
  | stranded _ hmain hprevious =>
    refine .of_missing hmain ?_
    rw [hprevious]
    exact hkept.log
  | appended piece hpiece => exact .of_settled (hkept.log.append parser hpiece) (Or.inl rfl)
  | replaced _ hmain => exact .replaced parser hmain

/-! ### Crashes -/

theorem content_cut (disk : JournalDisk) (kept : ℕ) :
    content (disk.cut kept) = (content disk.files).take kept := by
  unfold content JournalDisk.cut
  cases disk.files.main <;> simp

theorem settled_cut {disk : JournalDisk} (hsettled : disk.files.Settled) (kept : ℕ) :
    (disk.cut kept).Settled := by
  rcases hsettled with hsome | hnone
  · exact Or.inl (by rw [JournalDisk.cut, Option.isSome_map, hsome])
  · exact Or.inr hnone

theorem Kept.cut {disk : JournalDisk} (hkept : Kept encode disk.files) (kept : ℕ) :
    Kept encode (disk.cut kept) := by
  cases hmain : disk.files.main with
  | none =>
    have hsame : disk.cut kept = disk.files := by
      obtain ⟨⟨main, next, previous⟩, synced⟩ := disk
      cases hmain
      rfl
    rw [hsame]
    exact hkept
  | some bytes =>
    refine .of_settled ?_ (settled_cut (Or.inl (by rw [hmain]; rfl)) kept)
    rw [content_cut]
    exact hkept.log.take kept

include parser in
theorem Kept.interrupted {files stopped : Files Bytes} {write : SnapshotWrite Snapshot}
    (hkept : Kept encode files)
    (hstopped : Interrupted files (write.encoded encode) stopped) : Kept encode stopped := by
  cases hstopped with
  | started => exact hkept
  | writing partly => exact hkept.of_main rfl (Or.inl rfl)
  | cleared => exact hkept.of_main rfl (Or.inr rfl)
  | rotated old hold =>
    refine .of_missing rfl ?_
    have hlog := hkept.log
    rwa [content_of_main hold] at hlog
  | installed backup => exact .replaced parser rfl

include parser in
theorem Kept.crashed {disk : JournalDisk} (hkept : Kept encode disk.files)
    {write : SnapshotWrite Snapshot} {stopped : Files Bytes}
    (hcrashed : disk.Crashed encode write stopped) : Kept encode stopped := by
  cases hcrashed with
  | before kept => exact hkept.cut kept
  | appending _ piece hpiece => exact .of_settled (hkept.log.append parser hpiece) (Or.inl rfl)
  | compacting _ kept _ _ hstopped => exact (hkept.cut kept).interrupted parser hstopped

include parser in
theorem kept_reached {disk : JournalDisk} (hreached : JournalDisk.Reached encode disk) :
    Kept encode disk.files := by
  induction hreached with
  | empty => exact .of_settled log_nil (Or.inr rfl)
  | wrote disk write _ ih =>
    exact ih.left parser (left_appendExecutionSnapshotAtLimit disk.files write)
  | restarted disk write stopped _ hcrashed ih =>
    exact .of_settled (ih.crashed parser hcrashed).recovered (settled_recover stopped)

/-- What a start after a crash finds in the journal: what was there, possibly without some of what
was not synced, or that with part of the new line, or the new line alone. -/
theorem content_crashed {disk : JournalDisk} (hsettled : disk.files.Settled)
    {write : SnapshotWrite Snapshot} {stopped : Files Bytes}
    (hcrashed : disk.Crashed encode write stopped) :
    (∃ kept, disk.synced ≤ kept ∧ content stopped.recover = content (disk.cut kept).recover) ∨
      (∃ piece, piece <+: write.encoded encode ∧
        content stopped.recover = content disk.files ++ piece) ∨
      content stopped.recover = write.encoded encode := by
  cases hcrashed with
  | before kept hsynced => exact Or.inl ⟨kept, hsynced, rfl⟩
  | appending happends piece hpiece => exact Or.inr (Or.inl ⟨piece, hpiece, rfl⟩)
  | compacting hcompacts kept hsynced _ hstopped =>
    have hcut := settled_cut hsettled kept
    rcases recover_interrupted hcut hstopped with hold | hnew
    · refine Or.inl ⟨kept, hsynced, ?_⟩
      rw [content_recover_of_settled hcut]
      exact congrArg (·.getD []) hold
    · exact Or.inr (Or.inr (content_of_main hnew))

variable {parser}

theorem load_of_content {files other : Files Bytes}
    (hcontent : content files.recover = content other.recover) :
    loadExecutionState encode validate parser files =
      loadExecutionState encode validate parser other := by
  unfold loadExecutionState
  rw [hcontent]

/-- A snapshot whose write succeeded is what a start finds exactly if the write replaced the journal
or the journal was made of whole lines. -/
theorem load_after_write (hvalid : ∀ snapshot, validate snapshot = .ok ()) {disk : JournalDisk}
    (hkept : Kept encode disk.files) {write : SnapshotWrite Snapshot}
    (hok : (appendExecutionSnapshotAtLimit encode disk.files write).1 = .ok ()) :
    loadExecutionState encode validate parser (disk.write encode write).files =
        (.ok (), some write.snapshot) ↔
      write.compacts encode disk.files = true ∨ Whole encode (content disk.files) := by
  have hwritten : (disk.write encode write).files =
      (appendExecutionSnapshotAtLimit encode disk.files write).2 := rfl
  have hafter : (appendExecutionSnapshotAtLimit encode disk.files write).2.Settled := by
    rcases of_appendExecutionSnapshotAtLimit disk.files write hok with ⟨-, hmain⟩ | ⟨-, hfiles⟩
    · exact Or.inl (by rw [hmain]; rfl)
    · exact Or.inl (by rw [hfiles]; rfl)
  have hload : loadExecutionState encode validate parser (disk.write encode write).files =
      loadLines encode validate parser 1 (lines (content
        (appendExecutionSnapshotAtLimit encode disk.files write).2)) none := by
    rw [loadExecutionState, hwritten, content_recover_of_settled hafter]
  rw [hload]
  rcases of_appendExecutionSnapshotAtLimit disk.files write hok with
    ⟨hcompacts, hmain⟩ | ⟨happends, hfiles⟩
  · have hcontent : content (appendExecutionSnapshotAtLimit encode disk.files write).2 =
        [] ++ write.encoded encode := content_of_main hmain
    rw [hcontent]
    exact iff_of_true (loadLines_last hvalid ⟨[], rfl⟩ write.snapshot (Or.inr rfl))
      (Or.inl hcompacts)
  · rw [hfiles, content_appendBytes]
    constructor
    · intro hfound
      rcases hkept.log.whole_or_refused parser write.snapshot with hwhole | hrefused
      · exact Or.inr hwhole
      · have herror : ∃ message, (loadLines encode validate parser 1
            (lines (content disk.files ++ write.encoded encode)) none).1 = .error message :=
          loadLines_of_refused hrefused
        rw [hfound] at herror
        obtain ⟨message, hmessage⟩ := herror
        cases hmessage
    · rintro (hcompacts | hwhole)
      · rw [happends] at hcompacts
        cases hcompacts
      · exact loadLines_last hvalid hwhole write.snapshot (Or.inr rfl)

/-- A start after a crash in a write fails, or finds the new snapshot, or finds what was there
before, down to what was synced. -/
theorem load_after_crash (hvalid : ∀ snapshot, validate snapshot = .ok ()) {disk : JournalDisk}
    (hkept : Kept encode disk.files) (hsettled : disk.files.Settled) {write : SnapshotWrite Snapshot} {stopped : Files Bytes}
    (hcrashed : disk.Crashed encode write stopped) :
    (∃ message, (loadExecutionState encode validate parser stopped).1 = .error message) ∨
      loadExecutionState encode validate parser stopped = (.ok (), some write.snapshot) ∨
      ∃ kept, disk.synced ≤ kept ∧
        loadExecutionState encode validate parser stopped =
          loadExecutionState encode validate parser (disk.cut kept) := by
  rcases content_crashed hsettled hcrashed with ⟨kept, hsynced, hcontent⟩ |
    ⟨piece, hpiece, hcontent⟩ | hcontent
  · exact Or.inr (Or.inr ⟨kept, hsynced, load_of_content hcontent⟩)
  · rcases hkept.log.torn parser hpiece with rfl | hrefused | ⟨hwhole, hlast⟩
    · -- Nothing was written, so the journal is the one of before.
      refine Or.inr (Or.inr ⟨max disk.synced (content disk.files).length, le_max_left _ _,
        load_of_content ?_⟩)
      rw [hcontent, content_recover_of_settled (settled_cut hsettled _), content_cut,
        List.take_of_length_le (le_max_right _ _), List.append_nil]
    · left
      rw [loadExecutionState, hcontent]
      exact loadLines_of_refused hrefused
    · right
      left
      rw [loadExecutionState, hcontent]
      exact loadLines_last hvalid hwhole write.snapshot hlast
  · right
    left
    rw [loadExecutionState, hcontent]
    exact loadLines_last hvalid ⟨[], rfl⟩ write.snapshot (Or.inr rfl)

/-- After a write that succeeded nothing of the journal can be lost. -/
theorem cut_write {disk : JournalDisk} {write : SnapshotWrite Snapshot}
    (hok : (appendExecutionSnapshotAtLimit encode disk.files write).1 = .ok ()) {kept : ℕ}
    (hsynced : (disk.write encode write).synced ≤ kept) :
    (disk.write encode write).cut kept = (disk.write encode write).files := by
  have hlength : fileLen (disk.write encode write).files ≤ kept := by
    refine le_trans (le_of_eq ?_) hsynced
    exact (if_pos hok).symm
  generalize disk.write encode write = after at hlength
  obtain ⟨⟨main, next, previous⟩, synced⟩ := after
  cases main with
  | none => rfl
  | some bytes =>
    have htake : bytes.take kept = bytes := List.take_of_length_le hlength
    rw [JournalDisk.cut, Option.map_some, htake]

end Runs

/-! ### A snapshot that is lost -/

/-- Two snapshots by their texts: no position, or one in bitcoin. -/
def sampleText : Bool → Bytes
  | false => JsonText.utf8 "\x7b\"tracked_positions\":\x7b\x7d\x7d"
  | true => JsonText.utf8 "\x7b\"tracked_positions\":\x7b\"BTCUSDT\":1\x7d\x7d"

def sampleParse (line : Bytes) : Except String (Option Bool) :=
  if line = [] then .ok none
  else if line = sampleText false then .ok (some false)
  else if line = sampleText true then .ok (some true)
  else .error "expected value"

theorem sampleParse_refuses {line : Bytes} (hne : line ≠ [])
    (hnone : ∀ snapshot, line ≠ sampleText snapshot) :
    ∃ message, sampleParse line = .error message :=
  ⟨_, by rw [sampleParse, if_neg hne, if_neg (hnone false), if_neg (hnone true)]⟩

theorem sampleText_incomparable {snapshot other : Bool}
    (hbegins : sampleText snapshot <+: sampleText other) : snapshot = other := by
  revert hbegins
  cases snapshot <;> cases other <;> decide +kernel

theorem sampleText_unbordered : Unbordered sampleText := by
  have htails : ∀ snapshot other, (sampleText snapshot).tails.all (fun piece ↦
      piece = sampleText snapshot || piece = [] || !piece.isPrefixOf (sampleText other)) := by
    decide +kernel
  intro snapshot other piece hends hpart hne hbegins
  have hpiece := List.all_eq_true.mp (htails snapshot other) piece ((List.mem_tails _ _).mpr hends)
  simp [hpart, hne, List.isPrefixOf_iff_prefix.mpr hbegins] at hpiece

def sampleParser : SpliceParser sampleText where
  parse := sampleParse
  parse_nil := rfl
  parse_encode := by decide +kernel
  parse_torn := by
    intro snapshot line hshort hne hpart
    refine sampleParse_refuses hne fun other hother ↦ hpart ?_
    rw [hother] at hshort ⊢
    rw [sampleText_incomparable hshort]
  parse_glued := by
    intro snapshot other line _ hne
    refine sampleParse_refuses (by simp [hne]) fun glued hglued ↦ hne ?_
    have hsame : snapshot = glued := sampleText_incomparable ⟨line, hglued⟩
    rwa [hsame, List.append_right_eq_self] at hglued
  newline_free := by decide +kernel
  encode_ne_nil := by decide +kernel
  parse_spliced := by
    intro pieces hlength hpieces
    refine sampleParse_refuses (fun hnil ↦ ?_) (sampleText_unbordered.flatten_ne hlength hpieces)
    obtain ⟨first, rest, rfl⟩ := List.exists_cons_of_length_pos (Nat.lt_of_succ_lt hlength)
    rw [List.flatten_cons, List.append_eq_nil_iff] at hnil
    exact (hpieces first List.mem_cons_self).1 hnil.1

end Bongus.Engine
