import Mathlib.Data.Finmap
import Mathlib.Data.List.Sort
import Mathlib.Data.Multiset.Sort
import Mathlib.Data.Prod.Lex

/-!
# Hash maps

A hash map is a finite map: what it holds, and no order. `lookup_insert_ite` computes a lookup after
an insertion. `sortedValues` lists the values by a rank and then by key, each key once
(`mem_sortedValues`, `nodup_sortedValues`). An iteration goes through the keys in an order that the
map does not determine: `findBy` is the first entry with a property in a given order. `retain`
keeps the entries with a property.
-/

set_option autoImplicit false
set_option relaxedAutoImplicit false

namespace Bongus.Lib

abbrev HashMap (κ α : Type) := Finmap fun _ : κ ↦ α

namespace HashMap

variable {κ α ι : Type}

theorem lookup_insert_ite [DecidableEq κ] (m : HashMap κ α) (key other : κ) (value : α) :
    (m.insert key value).lookup other = if other = key then some value else m.lookup other := by
  by_cases h : other = key
  · subst h
    rw [if_pos rfl, Finmap.lookup_insert]
  · rw [if_neg h, Finmap.lookup_insert_of_ne _ h]

section Retain

variable [DecidableEq κ]

/-- The entries that have a property. -/
def retain (keeps : κ → α → Bool) (m : HashMap κ α) : HashMap κ α where
  entries := m.entries.filter fun entry ↦ keeps entry.1 entry.2
  nodupKeys := by
    rw [← Multiset.nodup_keys]
    exact Multiset.nodup_of_le (Multiset.map_le_map (Multiset.filter_le _ m.entries))
      (Multiset.nodup_keys.mpr m.nodupKeys)

end Retain

section Sorted

variable [LinearOrder κ] [LinearOrder ι]

/-- The ranks and keys of a map, in order. -/
def sortedKeys (rank : α → ι) (m : HashMap κ α) : List (ι ×ₗ κ) :=
  (m.entries.map fun entry ↦ toLex (rank entry.2, entry.1)).sort (· ≤ ·)

/-- The values by rank, and by key where ranks agree. -/
def sortedValues (rank : α → ι) (m : HashMap κ α) : List α :=
  (sortedKeys rank m).filterMap fun key ↦ m.lookup (ofLex key).2

theorem mem_sortedKeys {rank : α → ι} {m : HashMap κ α} {key : ι ×ₗ κ} :
    key ∈ sortedKeys rank m ↔
      ∃ value, m.lookup (ofLex key).2 = some value ∧ rank value = (ofLex key).1 := by
  rw [sortedKeys, Multiset.mem_sort, Multiset.mem_map]
  constructor
  · rintro ⟨⟨found, value⟩, hentry, rfl⟩
    exact ⟨value, Finmap.lookup_eq_some_iff.mpr hentry, rfl⟩
  · rintro ⟨value, hlookup, hrank⟩
    refine ⟨⟨(ofLex key).2, value⟩, Finmap.lookup_eq_some_iff.mp hlookup, ?_⟩
    rw [hrank]
    rfl

theorem mem_sortedValues {rank : α → ι} {m : HashMap κ α} {value : α} :
    value ∈ sortedValues rank m ↔ ∃ key, m.lookup key = some value := by
  rw [sortedValues, List.mem_filterMap]
  constructor
  · rintro ⟨key, -, hlookup⟩
    exact ⟨(ofLex key).2, hlookup⟩
  · rintro ⟨key, hlookup⟩
    exact ⟨toLex (rank value, key), mem_sortedKeys.mpr ⟨value, hlookup, rfl⟩, hlookup⟩

theorem nodup_sortedKeys (rank : α → ι) (m : HashMap κ α) : (sortedKeys rank m).Nodup := by
  rw [sortedKeys, ← Multiset.coe_nodup, Multiset.sort_eq]
  refine Multiset.Nodup.map_on ?_ m.nodup_entries
  rintro ⟨key, value⟩ hentry ⟨key', value'⟩ hentry' hsame
  have hkey : key = key' := congrArg (fun pair ↦ (ofLex pair).2) hsame
  subst hkey
  have hvalue := (Finmap.lookup_eq_some_iff.mpr hentry).symm.trans
    (Finmap.lookup_eq_some_iff.mpr hentry')
  rw [Option.some.inj hvalue]

/-- Values that determine their keys are listed once. -/
theorem nodup_sortedValues {rank : α → ι} {m : HashMap κ α}
    (hkey : ∀ {key key' value}, m.lookup key = some value → m.lookup key' = some value →
      key = key') : (sortedValues rank m).Nodup := by
  have hkeys : ((sortedKeys rank m).map fun key ↦ (ofLex key).2).Nodup := by
    refine (nodup_sortedKeys rank m).map_on fun first hfirst second hsecond hsame ↦ ?_
    obtain ⟨value, hvalue, hrank⟩ := mem_sortedKeys.mp hfirst
    obtain ⟨value', hvalue', hrank'⟩ := mem_sortedKeys.mp hsecond
    rw [hsame, hvalue', Option.some.injEq] at hvalue
    refine ofLex.injective (Prod.ext ?_ hsame)
    rw [← hrank, ← hrank', hvalue]
  have hvalues : sortedValues rank m =
      ((sortedKeys rank m).map fun key ↦ (ofLex key).2).filterMap m.lookup := by
    rw [List.filterMap_map]
    rfl
  rw [hvalues]
  exact hkeys.filterMap fun key key' value hlookup hlookup' ↦ hkey hlookup hlookup'

end Sorted

/-! ### Iteration -/

section Iteration

variable [LinearOrder κ]

/-- The order of an iteration, ties broken by the keys themselves. -/
abbrev visits (order : κ → ℕ) (first second : κ) : Prop :=
  toLex (order first, first) ≤ toLex (order second, second)

theorem visits_antisymm {order : κ → ℕ} {first second : κ} (hforth : visits order first second)
    (hback : visits order second first) : first = second :=
  congrArg (fun pair ↦ (ofLex pair).2) (le_antisymm hforth hback)

/-- The keys of a map as an iteration visits them. -/
def keysBy (order : κ → ℕ) (m : HashMap κ α) : List κ :=
  Quot.liftOn m.keys.val (List.insertionSort (visits order)) fun first second hperm ↦ by
    refine ((List.perm_insertionSort _ first).trans
      (hperm.trans (List.perm_insertionSort _ second).symm)).eq_of_pairwise ?_
      (List.pairwise_insertionSort _ first) (List.pairwise_insertionSort _ second)
    exact fun _ _ _ _ ↦ visits_antisymm

/-- The first entry of an iteration that has a property. -/
def findBy (order : κ → ℕ) (found : κ → α → Bool) (m : HashMap κ α) : Option (κ × α) :=
  (keysBy order m).findSome? fun key ↦
    ((m.lookup key).filter (found key)).map fun value ↦ (key, value)

end Iteration

end HashMap

end Bongus.Lib
