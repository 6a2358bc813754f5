import Bongus.Lib.Runs
import Mathlib.Data.List.Basic
import Mathlib.Tactic.IntervalCases

/-!
# Opening the split store

`_prepare_split_store` of `bongus/engine/split_state_store.py`, with the calls that create and mark
the three databases. A start of the writer may create them, a start of the reader may not. A process
can die between any two of its writes; a call that fails removes the database it was creating, which
leaves no more behind than a death before that database.

The marker is the last write of a creation, and a store without it is never completed: a first start
that dies halfway leaves a store that no start accepts until it is cleared by hand
(`store_of_first_start`).

What a start writes is computed first, as a list (`prepare`), so that a death keeps a beginning of
it. The paths of the three databases, and what a migration manifest has to say of itself, are left
out.
-/

set_option autoImplicit false
set_option relaxedAutoImplicit false

namespace Bongus.Storage.SplitStore

open Lib.Runs

inductive Role where
  | state
  | audit
  | research
deriving DecidableEq, Repr

def roleNames : List Role := [.state, .audit, .research]

def Role.filename : Role → String
  | .state => "state.db"
  | .audit => "audit.db"
  | .research => "research.db"

/-- A file of one role: without any content, with the exact tables of its role, or with something
else, which may have a table for the marker. -/
inductive Content where
  | blank
  | database
  | foreign (hasMeta : Bool)
deriving DecidableEq, Repr

def Content.hasMeta : Content → Bool
  | .blank => false
  | .database => true
  | .foreign hasMeta => hasMeta

/-- A published manifest: its identity, and whether it is intact and is about these databases. -/
structure Manifest where
  identity : String
  intact : Bool
deriving DecidableEq, Repr

structure Disk where
  file : Role → Option Content
  mode : Option String
  identity : Option String
  manifest : Option Manifest

inductive Write where
  | touch (role : Role)
  | build (role : Role)
  | mark (mode identity : String)
deriving DecidableEq, Repr

namespace Disk

def write (disk : Disk) : Write → Disk
  | .touch role => { disk with file := Function.update disk.file role (some .blank) }
  | .build role => { disk with file := Function.update disk.file role (some .database) }
  | .mark mode identity => { disk with mode := some mode, identity := some identity }

variable (disk : Disk)

def present (role : Role) : Bool := (disk.file role).isSome

def empty : Disk where
  file _ := none
  mode := none
  identity := none
  manifest := none

end Disk

def migrationActivationMode : String := "migration-manifest-v1"

def freshActivationMode : String := "fresh-split-v1"

def readActivationMarker (disk : Disk) : Except String (Option String × Option String) :=
  if (disk.file .state).any Content.hasMeta then
    if disk.mode.isNone ≠ disk.identity.isNone then
      .error "split-store activation marker is incomplete"
    else .ok (disk.mode, disk.identity)
  else .error "could not read split-store activation marker: no such table: schema_meta"

def validateRolePaths (disk : Disk) : Except String Unit :=
  roleNames.forM fun role ↦
    if disk.file role = some .database then .ok ()
    else .error (role.filename ++ " schema routing mismatch")

def verifiedManifest (manifest : Manifest) (hashesMatch verifyDestinationHashes : Bool) :
    Except String String :=
  if manifest.intact && (hashesMatch || !verifyDestinationHashes) then .ok manifest.identity
  else .error "published storage migration is invalid"

/-- The writes that create the three databases and mark them. -/
def creation (freshIdentity : String) : List Write :=
  roleNames.flatMap (fun role ↦ [.touch role, .build role]) ++
    [.mark freshActivationMode freshIdentity]

/-- What a start writes before the databases are used, or why it refuses them. -/
def prepare (freshIdentity : String) (allowInitialize hashesMatch : Bool) (disk : Disk) :
    Except String (List Write) :=
  if roleNames.any disk.present && !roleNames.all disk.present then
    .error ("partial split-store trio is unsafe; run the verified offline storage " ++
      "migration before activation")
  else if !roleNames.any disk.present then
    if !allowInitialize then .error "split-store databases do not exist"
    else if disk.manifest.isSome then
      .error "migration manifest exists without its complete database trio"
    else .ok (creation freshIdentity)
  else do
    let (mode, identity) ← readActivationMarker disk
    match mode with
    | none =>
      if !allowInitialize then
        .error "published migration has not completed its stopped activation"
      else
        match disk.manifest with
        | none => .error "existing unmarked split-store trio requires its migration manifest"
        | some manifest => do
          let manifestIdentity ← verifiedManifest manifest hashesMatch true
          validateRolePaths disk
          .ok [.mark migrationActivationMode manifestIdentity]
    | some mode =>
      if mode = migrationActivationMode then
        match disk.manifest with
        | none => .error "activated migrated split store is missing its manifest"
        | some manifest => do
          let manifestIdentity ← verifiedManifest manifest hashesMatch false
          if identity ≠ some manifestIdentity then
            .error "split-store activation marker does not match its manifest"
          else do
            validateRolePaths disk
            .ok []
      else if mode = freshActivationMode then
        if disk.manifest.isSome then
          .error "fresh split store cannot be rebound to a migration manifest"
        else if identity ≠ some freshIdentity then
          .error "fresh split-store activation marker is invalid"
        else do
          validateRolePaths disk
          .ok []
      else .error ("unsupported split-store activation mode: '" ++ mode ++ "'")

/-- A start of the writer or the reader, with the number of its writes that reach the disk. -/
structure Start where
  allowInitialize : Bool
  hashesMatch : Bool
  survived : ℕ
deriving DecidableEq, Repr

section Starts

variable (freshIdentity : String)

def Start.plan (start : Start) (disk : Disk) : Except String (List Write) :=
  prepare freshIdentity start.allowInitialize start.hashesMatch disk

def step (disk : Disk) (start : Start) : Disk :=
  match start.plan freshIdentity disk with
  | .error _ => disk
  | .ok writes => (writes.take start.survived).foldl Disk.write disk

/-- The store after a beginning of its creation. -/
def created (survived : ℕ) : Disk :=
  ((creation freshIdentity).take survived).foldl Disk.write .empty

variable {freshIdentity}

theorem length_creation : (creation freshIdentity).length = 7 := rfl

theorem created_of_le {survived : ℕ} (hall : 7 ≤ survived) :
    created freshIdentity survived = created freshIdentity 7 := by
  unfold created
  rw [List.take_of_length_le (by rwa [length_creation]),
    List.take_of_length_le (by rw [length_creation])]

theorem plan_empty (start : Start) :
    start.plan freshIdentity .empty =
      if start.allowInitialize then .ok (creation freshIdentity)
      else .error "split-store databases do not exist" := by
  obtain ⟨allowInitialize, hashesMatch, survived⟩ := start
  cases allowInitialize <;> rfl

/-- A store that is complete is opened by every start, without a write. -/
theorem plan_complete (start : Start) :
    start.plan freshIdentity (created freshIdentity 7) = .ok [] := by
  have hmarker : readActivationMarker (created freshIdentity 7) =
      .ok (some freshActivationMode, some freshIdentity) := rfl
  have hvalid : validateRolePaths (created freshIdentity 7) = .ok () := rfl
  have hpresent : ∀ role, (created freshIdentity 7).present role = true := by
    intro role
    cases role <;> rfl
  have hmanifest : (created freshIdentity 7).manifest = none := rfl
  simp [Start.plan, prepare, hmarker, hvalid, hpresent, hmanifest, roleNames, freshActivationMode,
    migrationActivationMode, Bind.bind, Except.bind]

/-- A store whose creation was cut short is refused by every start. -/
theorem plan_cut (start : Start) {survived : ℕ} (hbegun : 0 < survived) (hcut : survived < 7) :
    ∃ error, start.plan freshIdentity (created freshIdentity survived) = .error error := by
  obtain ⟨allowInitialize, hashesMatch, _⟩ := start
  interval_cases survived <;> cases allowInitialize <;> exact ⟨_, rfl⟩

theorem run_of_fixed {disk : Disk} (hfixed : ∀ start, step freshIdentity disk start = disk)
    (starts : List Start) : run (step freshIdentity) disk starts = disk :=
  invariant_run (· = disk) rfl (fun _ start hsame ↦ hsame ▸ hfixed start) starts

/-- Which of the starts from an empty root begins the creation of the store. -/
def begins (start : Start) : Bool := start.allowInitialize && 0 < start.survived

theorem step_empty (start : Start) :
    step freshIdentity .empty start =
      if begins start then created freshIdentity start.survived else .empty := by
  unfold step begins
  rw [plan_empty]
  obtain ⟨allowInitialize, hashesMatch, survived⟩ := start
  cases allowInitialize with
  | false => rfl
  | true =>
    cases survived with
    | zero => rfl
    | succ survived => rfl

theorem step_created {survived : ℕ} (hbegun : 0 < survived) (start : Start) :
    step freshIdentity (created freshIdentity survived) start = created freshIdentity survived := by
  unfold step
  by_cases hcut : survived < 7
  · have hplan : ∃ error, start.plan freshIdentity (created freshIdentity survived) =
        .error error := plan_cut start hbegun hcut
    obtain ⟨error, herror⟩ := hplan
    rw [herror]
  · rw [created_of_le (not_lt.1 hcut), plan_complete]
    simp

/-- The first start from an empty root that writes anything decides for good: if it lives to write
the marker, every start after it opens the store as it is; if it dies before that, every start after
it refuses the store. -/
theorem store_of_first_start (freshIdentity : String) (starts : List Start) (next : Start) :
    let disk := run (step freshIdentity) .empty starts
    match starts.find? begins with
    | none => disk = .empty
    | some first =>
      if 7 ≤ first.survived then
        disk = created freshIdentity 7 ∧ next.plan freshIdentity disk = .ok []
      else ∃ error, next.plan freshIdentity disk = .error error := by
  induction starts with
  | nil => rfl
  | cons start rest ih =>
    intro disk
    have hdisk : disk = run (step freshIdentity) (step freshIdentity .empty start) rest := rfl
    rw [step_empty] at hdisk
    by_cases hbegins : begins start = true
    · rw [if_pos hbegins] at hdisk
      have hbegun : 0 < start.survived := by
        simp only [begins, Bool.and_eq_true, decide_eq_true_eq] at hbegins
        exact hbegins.2
      rw [run_of_fixed (step_created hbegun)] at hdisk
      rw [List.find?_cons_of_pos hbegins, hdisk]
      dsimp only
      split
      · rename_i hall
        rw [created_of_le hall]
        exact ⟨rfl, plan_complete next⟩
      · rename_i hcut
        exact plan_cut next hbegun (not_le.1 hcut)
    · rw [if_neg hbegins] at hdisk
      rw [List.find?_cons_of_neg hbegins, hdisk]
      exact ih

end Starts

end Bongus.Storage.SplitStore
