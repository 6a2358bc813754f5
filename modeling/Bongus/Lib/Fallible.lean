import Mathlib.Data.List.Forall2

/-!
# Reading results of fallible computations

A function that can fail returns `Except`. The lemmas here turn the statement that a sequence of
steps succeeded into what each step gave, so that a caller is inverted step by step.
-/

set_option autoImplicit false
set_option relaxedAutoImplicit false

namespace Bongus.Lib.Fallible

variable {ε α β : Type}

@[simp] theorem pure_eq_ok {x y : α} : (pure x : Except ε α) = .ok y ↔ x = y := by
  simp [pure, Except.pure]

@[simp] theorem throw_eq_ok {e : ε} {x : α} : (throw e : Except ε α) = .ok x ↔ False := by
  simp [throw, throwThe, MonadExceptOf.throw]

@[simp] theorem throw_bind {e : ε} {next : α → Except ε β} :
    (throw e : Except ε α) >>= next = throw e := rfl

@[simp] theorem ok_bind {x : α} {next : α → Except ε β} :
    (Except.ok x : Except ε α) >>= next = next x := rfl

@[simp] theorem error_bind {e : ε} {next : α → Except ε β} :
    (Except.error e : Except ε α) >>= next = .error e := rfl

/-- What a successful sequence of two computations says of each of them. -/
theorem bind_eq_ok {first : Except ε α} {next : α → Except ε β} {result : β} :
    first >>= next = .ok result ↔ ∃ x, first = .ok x ∧ next x = .ok result := by
  cases first with
  | error e => simp
  | ok x => simp

/-- A computation without a result succeeded. -/
@[simp] theorem exists_unit_eq_ok {check : Except ε Unit} :
    (∃ x, check = .ok x) ↔ check = .ok () :=
  ⟨fun ⟨(), h⟩ ↦ h, fun h ↦ ⟨(), h⟩⟩

/-- A check that throws when it fails was passed, and the rest succeeded. -/
@[simp] theorem check_eq_ok {condition : Prop} [Decidable condition] {e : ε}
    {rest : Except ε α} {result : α} :
    (if condition then throw e else rest) = .ok result ↔ ¬ condition ∧ rest = .ok result := by
  by_cases h : condition
  · simp [h]
  · simp [h]

/-- A value that must be there. -/
def orThrow (value : Option α) (e : ε) : Except ε α :=
  match value with
  | none => .error e
  | some x => .ok x

@[simp] theorem orThrow_eq_ok {value : Option α} {e : ε} {x : α} :
    orThrow value e = .ok x ↔ value = some x := by
  cases value <;> simp [orThrow]

/-- A traversal succeeds where each of its items does. -/
theorem exists_mapM_eq_ok {read : α → Except ε β} {meaning : α → β → Prop} {items : List α}
    (hread : ∀ item ∈ items, ∃ result, read item = .ok result ∧ meaning item result) :
    ∃ results, items.mapM read = .ok results ∧ List.Forall₂ meaning items results := by
  induction items with
  | nil => exact ⟨[], rfl, .nil⟩
  | cons item rest ih =>
    obtain ⟨result, hresult, hmeaning⟩ := hread item List.mem_cons_self
    obtain ⟨results, hresults, hmeanings⟩ := ih fun other hother ↦
      hread other (List.mem_cons_of_mem _ hother)
    refine ⟨result :: results, ?_, .cons hmeaning hmeanings⟩
    rw [List.mapM_cons, hresult, ok_bind, hresults]
    rfl

theorem map_eq_of_forall₂ {γ : Type} {first : α → γ} {second : β → γ} {items : List α}
    {results : List β}
    (hresults : List.Forall₂ (fun item result ↦ second result = first item) items results) :
    results.map second = items.map first := by
  induction hresults with
  | nil => rfl
  | cons hresult _ ih => rw [List.map_cons, List.map_cons, hresult, ih]

theorem toOption_eq_some {x : Except ε α} {a : α} :
    x.toOption = some a ↔ x = .ok a := by
  cases x <;> simp [Except.toOption]

end Bongus.Lib.Fallible
