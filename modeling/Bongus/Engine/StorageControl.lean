import Bongus.Lib.AtomicReplace
import Bongus.Lib.Fallible
import Bongus.Lib.JsonText
import Bongus.Ipc.ConfigSnapshot

/-!
# The storage emergency latch

`execution_engine/src/storage.rs` and `OrderManager::apply_storage_control`. The latch has a
generation, and a checkpoint record of both is kept in a file that is replaced through a rename. An
update is applied by installing its record first. `apply_spec` is what an update does to the latch:
the generation does not decrease, and the latch is cleared only by an acknowledged recovery of a
newer generation whose record is installed. `load_interrupted` is what a start finds after a crash
inside an install: the record from before, or the new one.
-/

set_option autoImplicit false
set_option relaxedAutoImplicit false

namespace Bongus.Engine

open Ipc Lib.AtomicReplace Lib.Fallible Lib.JsonText Lib.LineLog

/-! ### The checkpoint record -/

def storageControlSchemaVersion : ℕ := 1

structure StorageControlRecord where
  schemaVersion : ℕ
  generation : ℕ
  emergencyLatched : Bool
  checksum : String
deriving DecidableEq, Repr

namespace StorageControlRecord

variable (crates : Crates)

def checksumFor (generation : ℕ) (emergencyLatched : Bool) : String :=
  crates.sha256 ("bongus-storage-control-v1\n" ++ toString generation ++ "\n" ++
    if emergencyLatched then "1" else "0")

def new (generation : ℕ) (emergencyLatched : Bool) : StorageControlRecord where
  schemaVersion := storageControlSchemaVersion
  generation := generation
  emergencyLatched := emergencyLatched
  checksum := checksumFor crates generation emergencyLatched

def validate (record : StorageControlRecord) : Except String Unit :=
  if record.schemaVersion ≠ storageControlSchemaVersion ∨ record.generation = 0 ∨
      record.checksum ≠ checksumFor crates record.generation record.emergencyLatched then
    .error "invalid storage-control checkpoint"
  else .ok ()

/-- The file of a record, as `serde_json` writes it, with a newline. -/
def bytes (record : StorageControlRecord) : Bytes :=
  object [("schema_version", .number record.schemaVersion),
    ("generation", .number record.generation),
    ("emergency_latched", .flag record.emergencyLatched),
    ("checksum", .text record.checksum)] ++ [newline]

theorem bytes_injective : Function.Injective bytes := by
  intro first second h
  cases first
  cases second
  simpa using (object_unambiguous h).1

/-- What reads a record: `serde_json`, as far as files of records are concerned. -/
structure Decoder where
  decode : Bytes → Except String StorageControlRecord
  decode_bytes : ∀ record, decode record.bytes = .ok record

open Classical in
noncomputable def exactDecoder : Decoder where
  decode content :=
    if h : ∃ record, bytes record = content then .ok h.choose else .error "expected value"
  decode_bytes record := by
    have h : ∃ other, bytes other = bytes record := ⟨record, rfl⟩
    rw [dif_pos h, bytes_injective h.choose_spec]

/-- Loading takes the backup where the file is missing. -/
def load (decoder : Decoder) (files : Files Bytes) :
    Except String (Option StorageControlRecord) :=
  match files.recover.main with
  | none => .ok none
  | some content => do
    let record ← (decoder.decode content).mapError ("decode storage-control checkpoint: " ++ ·)
    record.validate crates
    return some record

/-- Installing a record: it has to be valid, and the file operations have to succeed. -/
def persist (record : StorageControlRecord) (install : Except String Unit) : Except String Unit := do
  record.validate crates
  install

/-! ### Crashes inside an install -/

/-- The files of a running process, and whether a record is known to be installed: the process was
started on any files, and has installed records, also with failures. -/
inductive Serving : Bool → Files Bytes → Prop
  | started (files : Files Bytes) : Serving files.recover.main.isSome files.recover
  | persisted (installed : Bool) (files : Files Bytes) (hserving : Serving installed files)
      (record : StorageControlRecord) (hpersist : record.persist crates (.ok ()) = .ok ()) :
      Serving true (Files.replaced record.bytes)
  | failed (installed : Bool) (files : Files Bytes) (hserving : Serving installed files)
      (record : StorageControlRecord) (left : Files Bytes)
      (hfailed : Failed files record.bytes left) : Serving installed left

variable {crates}

theorem settled_of_serving {installed : Bool} {files : Files Bytes}
    (hserving : Serving crates installed files) : files.Settled := by
  induction hserving with
  | started files => exact settled_recover files
  | persisted installed files hserving record hpersist ih => exact settled_replaced _
  | failed installed files hserving record left hfailed ih => exact hfailed.settled ih

/-- A record that was installed stays, in one version or another. -/
theorem main_of_serving {installed : Bool} {files : Files Bytes}
    (hserving : Serving crates installed files) (hinstalled : installed = true) :
    files.main.isSome = true := by
  induction hserving with
  | started files => exact hinstalled
  | persisted installed files hserving record hpersist ih => rfl
  | failed installed files hserving record left hfailed ih =>
    cases hfailed with
    | unwritten next => exact ih hinstalled
    | restored => exact ih hinstalled
    | installed backup => rfl

theorem load_of_main {decoder : Decoder} {first second : Files Bytes}
    (hmain : first.recover.main = second.recover.main) :
    load crates decoder first = load crates decoder second := by
  unfold load
  rw [hmain]

theorem load_of_bytes {decoder : Decoder} {files : Files Bytes} {record : StorageControlRecord}
    (hvalid : record.validate crates = .ok ()) (hmain : files.recover.main = some record.bytes) :
    load crates decoder files = .ok (some record) := by
  unfold load
  rw [hmain]
  simp only [decoder.decode_bytes, Except.mapError, ok_bind, hvalid]
  rfl

theorem load_ne_none {decoder : Decoder} {files : Files Bytes}
    (hmain : files.recover.main.isSome) : load crates decoder files ≠ .ok none := by
  obtain ⟨content, hcontent⟩ := Option.isSome_iff_exists.mp hmain
  unfold load
  rw [hcontent]
  dsimp only
  intro hload
  simp only [bind_eq_ok, pure_eq_ok, reduceCtorEq, and_false, exists_false] at hload

/-- A start after a crash inside an install finds what was there before, or the new record. -/
theorem load_interrupted {decoder : Decoder} {installed : Bool} {files stopped : Files Bytes}
    {record : StorageControlRecord} (hserving : Serving crates installed files)
    (hvalid : record.validate crates = .ok ()) (hstopped : Interrupted files record.bytes stopped) :
    (load crates decoder stopped = load crates decoder files ∨
      load crates decoder stopped = .ok (some record)) ∧
      (installed = true → load crates decoder stopped ≠ .ok none) := by
  have hsettled := settled_of_serving hserving
  rcases recover_interrupted hsettled hstopped with hbefore | hafter
  · refine ⟨Or.inl (load_of_main ?_), fun hinstalled ↦ load_ne_none ?_⟩
    · rw [hbefore, recover_main_of_settled hsettled]
    · rw [hbefore]
      exact main_of_serving hserving hinstalled
  · exact ⟨Or.inr (load_of_bytes hvalid hafter), fun _ ↦ load_ne_none (by rw [hafter]; rfl)⟩

end StorageControlRecord

/-! ### Applying updates -/

/-- The latch as the process holds it. -/
structure StorageControl where
  generation : ℕ := 0
  emergencyLatched : Bool := false
  volatileLatched : Bool := false
  error : Option String := none
deriving DecidableEq, Repr

inductive StorageControlApplyOutcome where
  | applied
  | volatileLatched
deriving DecidableEq, Repr

namespace StorageControl

variable (crates : Crates) (storage : StorageControl)

/-- What applying an update returns, the latch after it, and whether the process has to reconcile. -/
structure Result where
  outcome : Except String StorageControlApplyOutcome
  storage : StorageControl
  reconciling : Bool := false

/-- Installing the record of an update that is due. -/
def install (update : StorageControlUpdate) (written : Except String Unit) : Result :=
  match (StorageControlRecord.new crates update.generation update.emergencyLatched).persist crates
      written with
  | .error err =>
    -- Without a checkpoint the latch is set, and an emergency counts although it is not durable.
    if update.emergencyLatched then
      ⟨.ok .volatileLatched, ⟨update.generation, true, true, some err⟩, true⟩
    else
      ⟨.error "storage_control_persistence_failed",
        { storage with emergencyLatched := true, error := some err }, true⟩
  | .ok () => ⟨.ok .applied, ⟨update.generation, update.emergencyLatched, false, none⟩, false⟩

/-- The outcome of an update that the latch already agrees with. -/
def settledOutcome : StorageControlApplyOutcome :=
  if storage.volatileLatched then .volatileLatched else .applied

def apply (update : Option StorageControlUpdate) (written : Except String Unit) : Result :=
  match update with
  -- An ordinary configuration cannot clear the latch.
  | none => ⟨.ok .applied, storage, false⟩
  | some update =>
    if update.generation < storage.generation then
      if update.emergencyLatched = storage.emergencyLatched then
        ⟨.ok storage.settledOutcome, storage, false⟩
      else ⟨.error "stale_storage_control_generation", storage, false⟩
    else if update.generation = storage.generation ∧
        update.emergencyLatched ≠ storage.emergencyLatched then
      ⟨.error "conflicting_storage_control_generation", storage, false⟩
    else if update.generation = storage.generation ∧ ¬ storage.volatileLatched then
      ⟨.ok .applied, storage, false⟩
    -- The same emergency again retries the checkpoint that failed.
    else if update.generation = storage.generation ∧ ¬ update.emergencyLatched then
      ⟨.error "volatile_storage_recovery_requires_new_generation", storage, false⟩
    else if ¬ update.emergencyLatched ∧ ¬ update.recoveryAcknowledged then
      ⟨.error "storage_recovery_acknowledgement_required", storage, false⟩
    else storage.install crates update written

/-- The latch is cleared by this update: an acknowledged recovery of a newer generation whose record
was installed. -/
structure Clears (before : StorageControl) (update : StorageControlUpdate)
    (written : Except String Unit) : Prop where
  latched : update.emergencyLatched = false
  acknowledged : update.recoveryAcknowledged = true
  newer : before.generation < update.generation
  installed : (StorageControlRecord.new crates update.generation false).persist crates written =
    .ok ()

/-- What an update, or none, may do to the latch. -/
structure Lawful (before after : StorageControl) (update : Option StorageControlUpdate)
    (written : Except String Unit) : Prop where
  generation : before.generation ≤ after.generation
  cleared : before.emergencyLatched = true → after.emergencyLatched = false →
    ∃ applied, update = some applied ∧ Clears crates before applied written

variable {crates storage}

theorem Lawful.refl (update : Option StorageControlUpdate) (written : Except String Unit) :
    Lawful crates storage storage update written :=
  ⟨le_rfl, fun hset hclear ↦ by rw [hset] at hclear; cases hclear⟩

/-- Setting the latch afterwards is lawful. -/
theorem Lawful.latch {before after latched : StorageControl} {update : Option StorageControlUpdate}
    {written : Except String Unit} (hlawful : Lawful crates before after update written)
    (hgeneration : after.generation ≤ latched.generation)
    (hlatched : latched.emergencyLatched = true) : Lawful crates before latched update written :=
  ⟨hlawful.generation.trans hgeneration,
    fun _ hclear ↦ by rw [hlatched] at hclear; cases hclear⟩

theorem install_spec {update : StorageControlUpdate} {written : Except String Unit}
    (hnewer : storage.generation < update.generation ∨
      (storage.generation = update.generation ∧ update.emergencyLatched = true))
    (hacknowledged : update.emergencyLatched = true ∨ update.recoveryAcknowledged = true) :
    Lawful crates storage (storage.install crates update written).storage (some update) written := by
  have hle : storage.generation ≤ update.generation := by
    rcases hnewer with h | h
    · exact h.le
    · exact h.1.le
  unfold install
  split
  · split
    · exact (Lawful.refl _ _).latch hle rfl
    · exact (Lawful.refl _ _).latch le_rfl rfl
  · next hpersist =>
    refine ⟨hle, fun _ hclear ↦ ⟨update, rfl, ?_⟩⟩
    dsimp only at hclear
    rw [hclear] at hnewer hacknowledged hpersist
    exact ⟨hclear, by simpa using hacknowledged, by simpa using hnewer, hpersist⟩

/-- Applying an update is lawful. -/
theorem apply_spec (update : Option StorageControlUpdate) (written : Except String Unit) :
    Lawful crates storage (storage.apply crates update written).storage update written := by
  cases update with
  | none => exact Lawful.refl _ _
  | some update =>
    unfold apply
    dsimp only
    split_ifs with holder hsame hconflict hvolatile hrecovery hacknowledged
    · exact Lawful.refl _ _
    · exact Lawful.refl _ _
    · exact Lawful.refl _ _
    · exact Lawful.refl _ _
    · exact Lawful.refl _ _
    · exact Lawful.refl _ _
    · refine install_spec ?_ ?_
      · rcases lt_or_eq_of_le (not_lt.mp holder) with hlt | heq
        · exact Or.inl hlt
        · exact Or.inr ⟨heq, by simpa [heq.symm] using hrecovery⟩
      · by_contra hneither
        rw [not_or, Bool.not_eq_true, Bool.not_eq_true] at hneither
        exact hacknowledged ⟨by simp [hneither.1], by simp [hneither.2]⟩

end StorageControl

end Bongus.Engine
