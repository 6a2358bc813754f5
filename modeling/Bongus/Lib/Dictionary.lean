import Mathlib.Algebra.BigOperators.Group.List.Basic
import Mathlib.Data.List.Nodup
import Mathlib.Data.List.Perm.Basic
import Bongus.Lib.Fallible

/-!
# Dictionaries

A dictionary is a list of entries with distinct names. `assign` replaces the value of a name or adds
the name at the end, `update` assigns the entries of another dictionary, and `tally` adds up amounts
under their names. `lookup_update` and `amount_tally` say what they hold. In a dictionary that is
kept in the order of its names, `place` puts a value where its name belongs.
-/

set_option autoImplicit false
set_option relaxedAutoImplicit false

namespace Bongus.Lib.Dictionary

variable {κ α : Type} [DecidableEq κ]

def keys (entries : List (κ × α)) : List κ := entries.map Prod.fst

/-- The value of a name is replaced where it stands, a new name comes last. -/
def assign (entries : List (κ × α)) (key : κ) (value : α) : List (κ × α) :=
  if key ∈ keys entries then
    entries.map fun entry ↦ if entry.1 = key then (key, value) else entry
  else entries ++ [(key, value)]

def update (entries more : List (κ × α)) : List (κ × α) :=
  more.foldl (fun current entry ↦ assign current entry.1 entry.2) entries

omit [DecidableEq κ] in
theorem nodup_keys_nil : (keys ([] : List (κ × α))).Nodup := List.nodup_nil

theorem keys_assign (entries : List (κ × α)) (key : κ) (value : α) :
    keys (assign entries key value) =
      if key ∈ keys entries then keys entries else keys entries ++ [key] := by
  unfold assign
  split
  · unfold keys
    rw [List.map_map]
    refine List.map_congr_left fun entry _ ↦ ?_
    dsimp only [Function.comp_apply]
    split
    · rename_i hkey
      exact hkey.symm
    · rfl
  · simp [keys]

theorem lookup_cons_ite (entry : κ × α) (rest : List (κ × α)) (other : κ) :
    (entry :: rest).lookup other =
      if other = entry.1 then some entry.2 else rest.lookup other := by
  obtain ⟨key, value⟩ := entry
  rw [List.lookup_cons]
  by_cases hother : other = key
  · rw [if_pos hother, beq_iff_eq.mpr hother]
  · rw [if_neg hother, beq_eq_false_iff_ne.mpr hother]

theorem mem_of_lookup {entries : List (κ × α)} {key : κ} {value : α}
    (hlookup : entries.lookup key = some value) : (key, value) ∈ entries := by
  induction entries with
  | nil => cases hlookup
  | cons entry rest ih =>
    rw [lookup_cons_ite] at hlookup
    split_ifs at hlookup with hkey
    · cases hlookup
      rw [hkey]
      exact List.mem_cons_self
    · exact List.mem_cons_of_mem _ (ih hlookup)

theorem lookup_filter_names (keep : κ → Prop) [DecidablePred keep] (entries : List (κ × α))
    (other : κ) :
    (entries.filter fun entry ↦ decide (keep entry.1)).lookup other =
      if keep other then entries.lookup other else none := by
  induction entries with
  | nil => simp
  | cons entry rest ih =>
    rw [List.filter_cons, lookup_cons_ite]
    by_cases hentry : keep entry.1
    · rw [if_pos (decide_eq_true hentry), lookup_cons_ite, ih]
      by_cases hother : other = entry.1
      · rw [if_pos hother, if_pos (hother ▸ hentry), if_pos hother]
      · rw [if_neg hother, if_neg hother]
    · rw [if_neg (by simpa using hentry), ih]
      by_cases hother : other = entry.1
      · rw [if_neg (hother ▸ hentry), if_neg (hother ▸ hentry)]
      · rw [if_neg hother]

theorem nodup_assign {entries : List (κ × α)} (hkeys : (keys entries).Nodup) (key : κ)
    (value : α) : (keys (assign entries key value)).Nodup := by
  rw [keys_assign]
  split
  · exact hkeys
  · rename_i hnew
    exact List.nodup_append.mpr ⟨hkeys, List.nodup_singleton _, fun first hfirst second hsecond ↦ by
      rw [List.mem_singleton.mp hsecond]
      exact fun hsame ↦ hnew (hsame ▸ hfirst)⟩

theorem mem_keys_assign {entries : List (κ × α)} {key other : κ} {value : α} :
    other ∈ keys (assign entries key value) ↔ other = key ∨ other ∈ keys entries := by
  rw [keys_assign]
  split
  · rename_i hknown
    constructor
    · exact Or.inr
    · rintro (rfl | hother)
      · exact hknown
      · exact hother
  · simp [or_comm]

theorem mem_keys_update {entries more : List (κ × α)} {key : κ} :
    key ∈ keys (update entries more) ↔ key ∈ keys entries ∨ key ∈ keys more := by
  unfold update
  induction more generalizing entries with
  | nil => simp [keys]
  | cons entry rest ih =>
    rw [List.foldl_cons, ih, mem_keys_assign]
    simp only [keys, List.map_cons, List.mem_cons]
    tauto

theorem nodup_update {entries : List (κ × α)} (hkeys : (keys entries).Nodup)
    (more : List (κ × α)) : (keys (update entries more)).Nodup := by
  induction more generalizing entries with
  | nil => exact hkeys
  | cons first rest ih => exact ih (nodup_assign hkeys first.1 first.2)

theorem lookup_eq_some {entries : List (κ × α)} (hkeys : (keys entries).Nodup) {key : κ}
    {value : α} : entries.lookup key = some value ↔ (key, value) ∈ entries := by
  induction entries with
  | nil => simp
  | cons first rest ih =>
    obtain ⟨hnew, hrest⟩ := List.nodup_cons.mp hkeys
    obtain ⟨name, held⟩ := first
    by_cases hkey : key = name
    · subst hkey
      have habsent : (key, value) ∉ rest := fun hmember ↦
        hnew (List.mem_map.mpr ⟨_, hmember, rfl⟩)
      simp only [List.lookup_cons, beq_self_eq_true, Option.some.injEq, List.mem_cons,
        Prod.mk.injEq, true_and, habsent, or_false]
      exact eq_comm
    · have hskip : (key == name) = false := by simpa using hkey
      simp [List.lookup_cons, hskip, hkey, ih hrest]

theorem lookup_eq_none {entries : List (κ × α)} {key : κ} :
    entries.lookup key = none ↔ key ∉ keys entries := by
  rw [List.lookup_eq_none_iff, keys, List.mem_map, not_exists]
  constructor
  · rintro habsent entry ⟨hentry, rfl⟩
    simpa using habsent entry hentry
  · intro habsent entry hentry
    have hne : key ≠ entry.1 := fun hsame ↦ habsent entry ⟨hentry, hsame.symm⟩
    simpa using hne

omit [DecidableEq κ] in
theorem nodup_filter {entries : List (κ × α)} (hkeys : (keys entries).Nodup)
    (keep : κ × α → Bool) : (keys (entries.filter keep)).Nodup :=
  hkeys.sublist (List.filter_sublist.map _)

theorem lookup_map_values {β : Type} (f : κ → α → β) (entries : List (κ × α)) (key : κ) :
    (entries.map fun entry ↦ (entry.1, f entry.1 entry.2)).lookup key =
      (entries.lookup key).map (f key) := by
  induction entries with
  | nil => rfl
  | cons entry rest ih =>
    rw [List.map_cons, lookup_cons_ite, lookup_cons_ite, ih]
    split_ifs with hkey
    · rw [hkey]
      rfl
    · rfl

omit [DecidableEq κ] in
theorem keys_map_values {β : Type} (f : κ → α → β) (entries : List (κ × α)) :
    keys (entries.map fun entry ↦ (entry.1, f entry.1 entry.2)) = keys entries := by
  simp [keys]

theorem lookup_replaced (entries : List (κ × α)) (key other : κ) (value : α) :
    (entries.map fun entry ↦ if entry.1 = key then (key, value) else entry).lookup other =
      if other = key ∧ key ∈ keys entries then some value else entries.lookup other := by
  induction entries with
  | nil => simp [keys]
  | cons entry rest ih =>
    have hkeys : key ∈ keys (entry :: rest) ↔ key = entry.1 ∨ key ∈ keys rest := by simp [keys]
    rw [List.map_cons, lookup_cons_ite, lookup_cons_ite, ih]
    simp only [hkeys]
    by_cases hentry : entry.1 = key
    · rw [if_pos hentry]
      by_cases hother : other = key
      · rw [if_pos hother, if_pos ⟨hother, Or.inl hentry.symm⟩]
      · have hskip : other ≠ entry.1 := fun h ↦ hother (h.trans hentry)
        rw [if_neg hother, if_neg (fun h ↦ hother h.1), if_neg (fun h ↦ hother h.1), if_neg hskip]
    · rw [if_neg hentry]
      by_cases hother : other = entry.1
      · have hskip : other ≠ key := fun h ↦ hentry (hother.symm.trans h)
        rw [if_pos hother, if_neg (fun h ↦ hskip h.1), if_pos hother]
      · have hnew : (key = entry.1 ∨ key ∈ keys rest) ↔ key ∈ keys rest :=
          or_iff_right fun h ↦ hentry h.symm
        rw [if_neg hother, if_neg hother]
        simp only [hnew]

theorem lookup_assign (entries : List (κ × α)) (key other : κ) (value : α) :
    (assign entries key value).lookup other =
      if other = key then some value else entries.lookup other := by
  unfold assign
  by_cases hknown : key ∈ keys entries
  · rw [if_pos hknown, lookup_replaced]
    simp only [hknown, and_true]
  · rw [if_neg hknown, List.lookup_append]
    by_cases hother : other = key
    · rw [hother, lookup_eq_none.mpr hknown, if_pos rfl, lookup_cons_ite, if_pos rfl]
      rfl
    · rw [if_neg hother, lookup_cons_ite, if_neg hother]
      simp

/-- The last of the added entries of a name counts, and what was there before if there is none. -/
theorem lookup_update_last (entries more : List (κ × α)) (key : κ) :
    (update entries more).lookup key = (more.reverse.lookup key).or (entries.lookup key) := by
  induction more generalizing entries with
  | nil => rfl
  | cons entry rest ih =>
    have hstep : update entries (entry :: rest) =
        update (assign entries entry.1 entry.2) rest := rfl
    rw [hstep, ih, lookup_assign, List.reverse_cons, List.lookup_append, lookup_cons_ite,
      List.lookup_nil, Option.or_assoc]
    split_ifs <;> rfl

/-- The entries of the second dictionary go before those of the first. -/
theorem lookup_update {entries more : List (κ × α)} (hmore : (keys more).Nodup) (key : κ) :
    (update entries more).lookup key = (more.lookup key).or (entries.lookup key) := by
  have hreverse : (keys more.reverse).Nodup := by
    rw [keys, List.map_reverse]
    exact List.nodup_reverse.mpr hmore
  have hsame : more.reverse.lookup key = more.lookup key := by
    ext value
    rw [lookup_eq_some hreverse, lookup_eq_some hmore, List.mem_reverse]
  rw [lookup_update_last, hsame]

/-- An assignment that changes nothing. -/
theorem assign_eq_self {entries : List (κ × α)} (hkeys : (keys entries).Nodup) {key : κ}
    {value : α} :
    assign entries key value = entries ↔ entries.lookup key = some value := by
  constructor
  · intro hself
    rw [← hself, lookup_assign, if_pos rfl]
  · intro hlookup
    have hmem : key ∈ keys entries := List.mem_map_of_mem (mem_of_lookup hlookup)
    rw [assign, if_pos hmem]
    refine (List.map_congr_left fun entry hentry ↦ ?_).trans (List.map_id _)
    by_cases hkey : entry.1 = key
    · rw [if_pos hkey]
      have hheld : entries.lookup key = some entry.2 := (lookup_eq_some hkeys).mpr (hkey ▸ hentry)
      exact Prod.ext hkey.symm (Option.some.inj (hlookup.symm.trans hheld))
    · rw [if_neg hkey]
      rfl

/-! ### Ordered names -/

section Ordered

variable [LT κ] [DecidableLT κ]

/-- A value in the place of its name. -/
def place (entries : List (κ × α)) (key : κ) (value : α) : List (κ × α) :=
  match entries with
  | [] => [(key, value)]
  | entry :: rest =>
    if key < entry.1 then (key, value) :: entry :: rest
    else if key = entry.1 then (key, value) :: rest
    else entry :: place rest key value

end Ordered

/-! ### Amounts under names -/

section Tally

variable [AddCommMonoid α]

/-- The amount under a name, nothing if the name is not there. -/
def amount (entries : List (κ × α)) (key : κ) : α := (entries.lookup key).getD 0

def addTo (totals : List (κ × α)) (entry : κ × α) : List (κ × α) :=
  assign totals entry.1 (amount totals entry.1 + entry.2)

/-- The totals of amounts that come one after the other. -/
def tally (entries : List (κ × α)) : List (κ × α) := entries.foldl addTo []

theorem amount_assign (entries : List (κ × α)) (key other : κ) (value : α) :
    amount (assign entries key value) other =
      if other = key then value else amount entries other := by
  unfold amount
  rw [lookup_assign]
  split_ifs
  · rfl
  · rfl

theorem amount_foldl_addTo {totals : List (κ × α)} (hkeys : (keys totals).Nodup)
    (entries : List (κ × α)) (key : κ) :
    amount (entries.foldl addTo totals) key =
      amount totals key + ((entries.filter fun entry ↦ entry.1 = key).map Prod.snd).sum := by
  induction entries generalizing totals with
  | nil => simp
  | cons first rest ih =>
    have hadded : (keys (addTo totals first)).Nodup := nodup_assign hkeys _ _
    rw [List.foldl_cons, ih hadded, addTo, amount_assign]
    by_cases hkey : first.1 = key
    · simp [hkey, add_assoc]
    · have hother : key ≠ first.1 := fun hsame ↦ hkey hsame.symm
      simp [hkey, hother]

/-- A total is the sum of the amounts that came under its name. -/
theorem amount_tally (entries : List (κ × α)) (key : κ) :
    amount (tally entries) key =
      ((entries.filter fun entry ↦ entry.1 = key).map Prod.snd).sum := by
  rw [tally, amount_foldl_addTo nodup_keys_nil]
  simp [amount]

end Tally

end Bongus.Lib.Dictionary
