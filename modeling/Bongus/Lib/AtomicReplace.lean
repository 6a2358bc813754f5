import Mathlib.Data.Option.Basic

/-!
# Replacing a file through a rename

A file is replaced in steps: the new content is written and synced beside it (`next`), a stale
backup is removed, the file is renamed to the backup (`previous`), the new file is renamed into its
place, and the backup is removed. `Interrupted` lists the states in which the replacement can stop.
A start that finds the file missing takes the backup (`recover`). `recover_interrupted` says what
such a start sees: the content from before, or the new one.
-/

set_option autoImplicit false
set_option relaxedAutoImplicit false

namespace Bongus.Lib.AtomicReplace

variable {α : Type*}

/-- The file, the file it is to be replaced by, and the backup. -/
structure Files (α : Type*) where
  main : Option α := none
  next : Option α := none
  previous : Option α := none

/-- A missing file is taken from the backup. -/
def Files.recover (files : Files α) : Files α :=
  match files.main with
  | some _ => files
  | none => { files with main := files.previous, previous := none }

/-- The state after the file was replaced. -/
def Files.replaced (content : α) : Files α := { main := some content }

/-- The states in which a replacement can stop. What a write that was cut off leaves beside the file
is arbitrary. -/
inductive Interrupted (files : Files α) (content : α) : Files α → Prop
  | started : Interrupted files content files
  | writing (partly : α) : Interrupted files content { files with next := some partly }
  | cleared : Interrupted files content { files with next := some content, previous := none }
  | rotated (old : α) (hold : files.main = some old) :
      Interrupted files content ⟨none, some content, some old⟩
  | installed (backup : Option α) (hbackup : backup = files.main ∨ backup = none) :
      Interrupted files content ⟨some content, none, backup⟩

/-- The states that a replacement leaves when one of its operations fails. A new file that cannot be
put in place brings the old one back. -/
inductive Failed (files : Files α) (content : α) : Files α → Prop
  | unwritten (next : Option α) : Failed files content { files with next := next }
  | restored : Failed files content { files with next := some content, previous := none }
  | installed (backup : Option α) : Failed files content ⟨some content, none, backup⟩

/-- The backup is only needed while the file is there: no replacement was left half done. -/
def Files.Settled (files : Files α) : Prop := files.main.isSome ∨ files.previous = none

theorem Interrupted.replaced {files : Files α} {content : α} :
    Interrupted files content (Files.replaced content) :=
  .installed none (Or.inr rfl)

theorem settled_replaced (content : α) : (Files.replaced content).Settled := Or.inl rfl

theorem Failed.settled {files left : Files α} {content : α} (hsettled : files.Settled)
    (hfailed : Failed files content left) : left.Settled := by
  cases hfailed with
  | unwritten next => exact hsettled
  | restored => exact Or.inr rfl
  | installed backup => exact Or.inl rfl

theorem settled_recover (files : Files α) : files.recover.Settled := by
  unfold Files.recover
  split
  · next content hmain => exact Or.inl (by simp [hmain])
  · exact Or.inr rfl

theorem recover_main_of_settled {files : Files α} (hsettled : files.Settled) :
    files.recover.main = files.main := by
  unfold Files.recover
  split
  · rfl
  · next hmain =>
    rcases hsettled with hsome | hnone
    · simp [hmain] at hsome
    · rw [hmain, hnone]

/-- A start after an interrupted replacement sees the content from before or the new content. -/
theorem recover_interrupted {files stopped : Files α} {content : α} (hsettled : files.Settled)
    (hstopped : Interrupted files content stopped) :
    stopped.recover.main = files.main ∨ stopped.recover.main = some content := by
  cases hstopped with
  | started => exact Or.inl (recover_main_of_settled hsettled)
  | writing partly => exact Or.inl (recover_main_of_settled hsettled)
  | cleared => exact Or.inl (recover_main_of_settled (Or.inr rfl))
  | rotated old hold => exact Or.inl hold.symm
  | installed backup => exact Or.inr rfl

end Bongus.Lib.AtomicReplace
