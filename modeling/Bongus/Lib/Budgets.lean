import Mathlib.Algebra.Order.BigOperators.Group.List
import Mathlib.Algebra.Order.Group.MinMax
import Mathlib.Tactic.Linarith

/-!
# Budgets over a list of claims

A budget counts some of the claims of a list, adds up an amount of each, and has a limit. It is
kept when nothing is claimed or the claims are within the limit: the limit itself may be negative,
and then only empty claims keep it. A budget stays kept when claims are withdrawn (`Kept.map`), and
when a claim is added that fits into what the limit leaves, clamped at zero (`Kept.concat`).
-/

set_option autoImplicit false
set_option relaxedAutoImplicit false

namespace Bongus.Lib.Budgets

variable {Claim α : Type*} [Field α]

/-- Which claims are counted, by what amount, and up to which limit. -/
structure Budget (Claim α : Type*) where
  counted : Claim → Bool
  amount : Claim → α
  limit : α

namespace Budget

variable (budget : Budget Claim α)

/-- The sum of the counted claims. -/
def claimed (claims : List Claim) : α :=
  ((claims.filter budget.counted).map budget.amount).sum

@[simp] theorem claimed_nil : budget.claimed [] = 0 := rfl

theorem claimed_cons (claim : Claim) (rest : List Claim) :
    budget.claimed (claim :: rest) =
      (if budget.counted claim then budget.amount claim else 0) + budget.claimed rest := by
  unfold claimed
  by_cases hcounted : budget.counted claim = true
  · simp [hcounted]
  · simp [hcounted]

theorem claimed_concat (claims : List Claim) (claim : Claim) :
    budget.claimed (claims ++ [claim]) =
      budget.claimed claims + if budget.counted claim then budget.amount claim else 0 := by
  induction claims with
  | nil => simp [claimed_cons]
  | cons first rest ih => rw [List.cons_append, claimed_cons, claimed_cons, ih, add_assoc]

variable [LinearOrder α]

/-- Nothing is claimed, or the claims are within the limit. -/
def Kept (claims : List Claim) : Prop :=
  budget.claimed claims = 0 ∨ budget.claimed claims ≤ budget.limit

variable {budget}

theorem Kept.nil : budget.Kept [] := Or.inl rfl

/-- A claim that is not counted changes nothing. -/
theorem Kept.concat_uncounted {claims : List Claim} {claim : Claim} (hkept : budget.Kept claims)
    (huncounted : budget.counted claim = false) : budget.Kept (claims ++ [claim]) := by
  simpa [Kept, claimed_concat, huncounted] using hkept

/-- With a limit that is not negative, kept means within the limit. -/
theorem Kept.le {claims : List Claim} (hkept : budget.Kept claims) (hlimit : 0 ≤ budget.limit) :
    budget.claimed claims ≤ budget.limit := by
  rcases hkept with hzero | hle
  · rwa [hzero]
  · exact hle

variable [IsStrictOrderedRing α]

theorem claimed_nonneg {claims : List Claim}
    (hamount : ∀ claim ∈ claims, 0 ≤ budget.amount claim) : 0 ≤ budget.claimed claims := by
  refine List.sum_nonneg fun x hx ↦ ?_
  obtain ⟨claim, hclaim, rfl⟩ := List.mem_map.mp hx
  exact hamount claim (List.mem_of_mem_filter hclaim)

/-- A budget that counts fewer of the same amounts has claims that are no larger. -/
theorem claimed_le_of_counted {other : Budget Claim α} {claims : List Claim}
    (hcounted : ∀ claim ∈ claims, budget.counted claim = true → other.counted claim = true)
    (hamount : ∀ claim ∈ claims, budget.amount claim = other.amount claim)
    (hnonneg : ∀ claim ∈ claims, 0 ≤ other.amount claim) :
    budget.claimed claims ≤ other.claimed claims := by
  induction claims with
  | nil => simp
  | cons claim rest ih =>
    have hrest := ih (fun c hc ↦ hcounted c (List.mem_cons_of_mem _ hc))
      (fun c hc ↦ hamount c (List.mem_cons_of_mem _ hc))
      (fun c hc ↦ hnonneg c (List.mem_cons_of_mem _ hc))
    have hfirst := hnonneg claim List.mem_cons_self
    rw [claimed_cons, claimed_cons, hamount claim List.mem_cons_self]
    by_cases hb : budget.counted claim = true
    · rw [if_pos hb, if_pos (hcounted claim List.mem_cons_self hb)]
      linarith
    · rw [if_neg hb]
      split_ifs
      · linarith
      · linarith

/-- Withdrawing claims does not raise the sum. -/
theorem claimed_map_le {claims : List Claim} {f : Claim → Claim}
    (hcounted : ∀ claim ∈ claims, budget.counted (f claim) = true → budget.counted claim = true)
    (hamount : ∀ claim ∈ claims, budget.amount (f claim) = budget.amount claim)
    (hnonneg : ∀ claim ∈ claims, 0 ≤ budget.amount claim) :
    budget.claimed (claims.map f) ≤ budget.claimed claims := by
  have hmap : budget.claimed (claims.map f) =
      Budget.claimed ⟨budget.counted ∘ f, budget.amount ∘ f, budget.limit⟩ claims := by
    simp [claimed, List.filter_map]
  rw [hmap]
  exact claimed_le_of_counted hcounted hamount hnonneg

/-- A budget stays kept when claims are withdrawn. -/
theorem Kept.map {claims : List Claim} {f : Claim → Claim} (hkept : budget.Kept claims)
    (hcounted : ∀ claim ∈ claims, budget.counted (f claim) = true → budget.counted claim = true)
    (hamount : ∀ claim ∈ claims, budget.amount (f claim) = budget.amount claim)
    (hnonneg : ∀ claim ∈ claims, 0 ≤ budget.amount claim) : budget.Kept (claims.map f) := by
  have hle := claimed_map_le hcounted hamount hnonneg
  rcases hkept with hzero | hlimit
  · refine Or.inl (le_antisymm (hle.trans_eq hzero) (claimed_nonneg fun claim hclaim ↦ ?_))
    obtain ⟨old, hold, rfl⟩ := List.mem_map.mp hclaim
    rw [hamount old hold]
    exact hnonneg old hold
  · exact Or.inr (hle.trans hlimit)

/-- A budget stays kept when the new claim, if it is counted, fits into what the limit leaves after `used`, clamped at
zero, and `used` is at least what the budget counts. -/
theorem Kept.concat {claims : List Claim} {claim : Claim} {used : α} (hkept : budget.Kept claims)
    (hused : budget.claimed claims ≤ used) (hnonneg : 0 ≤ budget.amount claim)
    (hfits : budget.counted claim = true → budget.amount claim ≤ max 0 (budget.limit - used)) :
    budget.Kept (claims ++ [claim]) := by
  by_cases hcounted : budget.counted claim = true
  · rcases le_max_iff.mp (hfits hcounted) with hzero | hroom
    · have hempty : budget.amount claim = 0 := le_antisymm hzero hnonneg
      simpa [Kept, claimed_concat, hempty] using hkept
    · refine Or.inr ?_
      rw [claimed_concat, if_pos hcounted]
      linarith
  · exact hkept.concat_uncounted (by simpa using hcounted)

end Budget

end Bongus.Lib.Budgets
