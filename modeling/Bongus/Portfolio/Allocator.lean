import Mathlib.Algebra.Order.Ring.Unbundled.Rat
import Mathlib.Data.List.Dedup
import Bongus.Lib.Dictionary

/-!
# The live allocator

`_decide_legacy` of `bongus/portfolio/portfolio_allocator.py`: the ranked symbols that may be
entered while slots are free, and the exchange of the weakest open position for the head of the
ranking if nothing is entered. The entries are the first symbols of the ranking that fit
(`consider_fst`). The rotation looks at the head of the ranking again, but not at its depth.
`admissible_iff` says when every entry and every rotation target is admissible.

Python floats are a parameter: `<` and `>=` are both false at a NaN (`Floats.Lawful`).
-/

set_option autoImplicit false
set_option relaxedAutoImplicit false

namespace Bongus.Portfolio.Allocator

open Lib.Dictionary

/-! ### Floats -/

structure Floats (ν : Type) where
  less : ν → ν → Bool
  atLeast : ν → ν → Bool
  isNan : ν → Bool
  mul : ν → ν → ν
  sub : ν → ν → ν
  literal : ℚ → ν

variable {ν : Type} (floats : Floats ν)

structure Floats.Lawful : Prop where
  atLeast_iff : ∀ x y, floats.atLeast x y = true ↔
    floats.less x y = false ∧ floats.isNan x = false ∧ floats.isNan y = false

/-- `min` of two values: the second one only if it is less. -/
def Floats.min (x y : ν) : ν := if floats.less y x then y else x

/-- `max` of two values: the second one only if it is greater. -/
def Floats.max (x y : ν) : ν := if floats.less x y then y else x

/-! ### The decision -/

structure OpenPosition (ν : Type) where
  symbol : String
  annFunding : ν
  recoveryState : Option String := none

structure PortfolioAllocator (ν : Type) where
  entryDepth : Option (String → ν)
  capitalPerSlot : ν
  perSymbolNotionalCapUsd : ν

structure Request (ν : Type) where
  openPositions : List (OpenPosition ν)
  blockedSymbols : List String
  notionalScale : ν
  rotationMinGapAnn : ν
  notionalOverrides : List (String × ν)
  ranked : List (String × ν)

structure AllocationDecision (ν : Type) where
  enter : List (String × ν)
  exit : List (String × String)
  hold : List String
  rejected : List (String × List String)
  rotationTargets : List (String × String)
  rotationNotionals : List (String × ν)

def maxConcurrentPositions : ℕ := 4

def maxNotionalPerTrade : ν := floats.literal 2500

def targetLeverage : ν := floats.literal 2

def liquidityFilterMultiplier : ν := floats.literal 5

variable (lower : String → String) (allocator : PortfolioAllocator ν) (request : Request ν)

def Request.openSymbols : List String := request.openPositions.map OpenPosition.symbol

def baseTargetNotional : ν :=
  floats.min (floats.min
    (floats.mul (floats.mul allocator.capitalPerSlot (targetLeverage floats))
      (floats.max (floats.literal (1 / 10)) request.notionalScale))
    (maxNotionalPerTrade floats)) allocator.perSymbolNotionalCapUsd

def targetNotional (symbol : String) : ν :=
  (request.notionalOverrides.lookup symbol).getD (baseTargetNotional floats allocator request)

/-- The depth of a symbol, and zero without a source of depths. -/
def getEntryDepth (symbol : String) : ν :=
  match allocator.entryDepth with
  | none => floats.literal 0
  | some depth => depth symbol

def requiredDepth (notional : ν) : ν := floats.mul notional (liquidityFilterMultiplier floats)

def lowEntryDepth (symbol : String) : Bool :=
  floats.less (getEntryDepth floats allocator symbol)
    (requiredDepth floats (targetNotional floats allocator request symbol))

def entryReasons (symbol : String) : List String :=
  (if symbol ∈ request.blockedSymbols then ["blocked"] else []) ++
    (if symbol ∈ request.openSymbols then ["already_open"] else []) ++
    (if lowEntryDepth floats allocator request symbol then ["low_entry_depth"] else [])

/-- The loop over the ranking. It stops at the first symbol that fits when no slot is free. -/
def consider : List (String × ν) → ℕ → List (String × List String) →
    List (String × ν) × List (String × List String)
  | [], _, rejected => ([], rejected)
  | (symbol, _) :: rest, freeSlots, rejected =>
    let reasons := entryReasons floats allocator request symbol
    if reasons = [] then
      match freeSlots with
      | 0 => ([], assign rejected symbol ["no_free_slots"])
      | freeSlots + 1 =>
        let (enter, rejected) := consider rest freeSlots rejected
        ((symbol, targetNotional floats allocator request symbol) :: enter, rejected)
    else consider rest freeSlots (assign rejected symbol reasons)

def freeSlots : ℕ := maxConcurrentPositions - request.openPositions.length

def underManualReview (position : OpenPosition ν) : Bool :=
  lower (position.recoveryState.getD "") = "manual_review"

/-- The first position of least funding. -/
def weakest : List (OpenPosition ν) → Option (OpenPosition ν)
  | [] => none
  | position :: rest => some (rest.foldl (fun least next ↦
      if floats.less next.annFunding least.annFunding then next else least) position)

/-- The position to leave and the symbol to enter in its place. -/
def rotation : Option (OpenPosition ν × String) :=
  match request.ranked with
  | [] => none
  | (bestSymbol, bestRate) :: _ =>
    if bestSymbol ∉ request.blockedSymbols ∧ bestSymbol ∉ request.openSymbols then
      match weakest floats (request.openPositions.filter fun position ↦
          !underManualReview lower position) with
      | none => none
      | some position =>
        if floats.atLeast (floats.sub bestRate position.annFunding) request.rotationMinGapAnn then
          some (position, bestSymbol)
        else none
    else none

def decideLegacy : AllocationDecision ν :=
  let (enter, rejected) := consider floats allocator request request.ranked (freeSlots request) []
  let hold := request.openSymbols.dedup
  match enter, rotation floats lower request with
  | [], some (position, bestSymbol) =>
    { enter := []
      exit := [(position.symbol, "rotation")]
      hold := hold
      rejected := rejected
      rotationTargets := [(position.symbol, bestSymbol)]
      rotationNotionals :=
        [(position.symbol, targetNotional floats allocator request bestSymbol)] }
  | enter, _ =>
    { enter := enter
      exit := []
      hold := hold
      rejected := rejected
      rotationTargets := []
      rotationNotionals := [] }

/-! ### Admissible decisions -/

/-- A symbol may be entered with a notional. -/
structure Enterable (symbol : String) (notional : ν) : Prop where
  unblocked : symbol ∉ request.blockedSymbols
  closed : symbol ∉ request.openSymbols
  deep : floats.atLeast (getEntryDepth floats allocator symbol)
    (requiredDepth floats notional) = true

/-- What is entered may be entered and fits the free slots. A position that is rotated out is open
and not under review, and what comes in its place may be entered. -/
structure Admissible (decision : AllocationDecision ν) : Prop where
  distinct : (request.ranked.map Prod.fst).Nodup → (decision.enter.map Prod.fst).Nodup
  entries : ∀ symbol notional, (symbol, notional) ∈ decision.enter →
    Enterable floats allocator request symbol notional
  slots : decision.enter.length ≤ freeSlots request
  rotated : ∀ symbol target, (symbol, target) ∈ decision.rotationTargets →
    symbol ∈ request.openSymbols ∧ ∀ position ∈ request.openPositions,
      position.symbol = symbol → underManualReview lower position = false
  targets : ∀ symbol target, (symbol, target) ∈ decision.rotationTargets →
    ∃ notional, decision.rotationNotionals.lookup symbol = some notional ∧
      Enterable floats allocator request target notional

/-- The loop has nothing against a symbol. -/
def fits (symbol : String) : Bool :=
  symbol ∉ request.blockedSymbols && symbol ∉ request.openSymbols &&
    !lowEntryDepth floats allocator request symbol

/-- The candidates that fit, as many as there are free slots. -/
def entrants : List (String × ν) :=
  (request.ranked.filter fun candidate ↦ fits floats allocator request candidate.1).take
    (freeSlots request)

/-- Nothing is entered, and the head of the ranking is far enough above the weakest position that is
not under review. -/
def Rotates (bestSymbol : String) : Prop :=
  entrants floats allocator request = [] ∧ ∃ bestRate rest position,
    request.ranked = (bestSymbol, bestRate) :: rest ∧
    bestSymbol ∉ request.blockedSymbols ∧ bestSymbol ∉ request.openSymbols ∧
    weakest floats (request.openPositions.filter fun position ↦
      !underManualReview lower position) = some position ∧
    floats.atLeast (floats.sub bestRate position.annFunding) request.rotationMinGapAnn = true

/-- No depth of an entry is a NaN, and the head of the ranking has the depth when it is rotated
in. -/
structure Deep : Prop where
  known : ∀ candidate ∈ entrants floats allocator request,
    floats.isNan (getEntryDepth floats allocator candidate.1) = false ∧
      floats.isNan (requiredDepth floats
        (targetNotional floats allocator request candidate.1)) = false
  target : ∀ bestSymbol, Rotates floats lower allocator request bestSymbol →
    floats.atLeast (getEntryDepth floats allocator bestSymbol) (requiredDepth floats
      (targetNotional floats allocator request bestSymbol)) = true

variable {floats lower allocator request}

theorem entryReasons_eq_nil {symbol : String} :
    entryReasons floats allocator request symbol = [] ↔
      fits floats allocator request symbol = true := by
  simp [entryReasons, fits, and_assoc]

/-- The loop enters the first candidates that fit. -/
theorem consider_fst (ranked : List (String × ν)) (free : ℕ)
    (rejected : List (String × List String)) :
    (consider floats allocator request ranked free rejected).1 =
      ((ranked.filter fun candidate ↦ fits floats allocator request candidate.1).take free).map
        fun candidate ↦ (candidate.1, targetNotional floats allocator request candidate.1) := by
  induction ranked generalizing free rejected with
  | nil => simp [consider]
  | cons candidate rest ih =>
    obtain ⟨symbol, rate⟩ := candidate
    by_cases hfits : fits floats allocator request symbol = true
    · have hreasons := entryReasons_eq_nil.mpr hfits
      cases free with
      | zero => simp [consider, hreasons]
      | succ free => simp [consider, hreasons, hfits, ih]
    · have hreasons : entryReasons floats allocator request symbol ≠ [] :=
        fun h ↦ hfits (entryReasons_eq_nil.mp h)
      simp [consider, hreasons, hfits, ih]

theorem consider_eq_nil :
    (consider floats allocator request request.ranked (freeSlots request) []).1 = [] ↔
      entrants floats allocator request = [] := by
  rw [consider_fst, ← entrants, List.map_eq_nil_iff]

theorem enter_decideLegacy :
    (decideLegacy floats lower allocator request).enter =
      (entrants floats allocator request).map fun candidate ↦
        (candidate.1, targetNotional floats allocator request candidate.1) := by
  rw [entrants, ← consider_fst request.ranked (freeSlots request) []]
  unfold decideLegacy
  dsimp only
  split
  · next henter _ => exact henter.symm
  · rfl

/-- The weakest position is one of the positions. -/
theorem weakest_mem {positions : List (OpenPosition ν)} {position : OpenPosition ν}
    (hweakest : weakest floats positions = some position) : position ∈ positions := by
  have hfold : ∀ (rest : List (OpenPosition ν)) (first : OpenPosition ν),
      rest.foldl (fun least next ↦
        if floats.less next.annFunding least.annFunding then next else least) first ∈
          first :: rest := by
    intro rest
    induction rest with
    | nil => exact fun first ↦ List.mem_cons_self
    | cons next rest ih =>
      intro first
      rw [List.foldl_cons]
      split_ifs
      · exact List.mem_cons_of_mem _ (ih next)
      · rcases List.mem_cons.mp (ih first) with hfirst | hrest
        · exact List.mem_cons.mpr (Or.inl hfirst)
        · exact List.mem_cons_of_mem _ (List.mem_cons_of_mem _ hrest)
  cases positions with
  | nil => cases hweakest
  | cons first rest => exact Option.some.inj hweakest ▸ hfold rest first

theorem rotation_eq_some {position : OpenPosition ν} {bestSymbol : String} :
    rotation floats lower request = some (position, bestSymbol) ↔
      ∃ bestRate rest, request.ranked = (bestSymbol, bestRate) :: rest ∧
        bestSymbol ∉ request.blockedSymbols ∧ bestSymbol ∉ request.openSymbols ∧
        weakest floats (request.openPositions.filter fun position ↦
          !underManualReview lower position) = some position ∧
        floats.atLeast (floats.sub bestRate position.annFunding) request.rotationMinGapAnn =
          true := by
  unfold rotation
  cases hranked : request.ranked with
  | nil => simp
  | cons best rest =>
    obtain ⟨symbol, rate⟩ := best
    by_cases hopen : symbol ∉ request.blockedSymbols ∧ symbol ∉ request.openSymbols
    · cases hweakest : weakest floats (request.openPositions.filter fun position ↦
          !underManualReview lower position) with
      | none => simp [hopen]
      | some least =>
        by_cases hgap : floats.atLeast (floats.sub rate least.annFunding)
            request.rotationMinGapAnn = true
        · simp only [hopen, hgap, if_true, Option.some.injEq, Prod.mk.injEq, List.cons.injEq]
          grind
        · simp only [hopen, hgap]
          grind
    · grind

variable (floats lower allocator request) in
/-- A rotation is proposed when nothing is entered, from the weakest position to the head of the
ranking. -/
theorem rotations_decideLegacy :
    let decision := decideLegacy floats lower allocator request
    (∃ position bestSymbol, entrants floats allocator request = [] ∧
      rotation floats lower request = some (position, bestSymbol) ∧
      decision.rotationTargets = [(position.symbol, bestSymbol)] ∧
      decision.rotationNotionals =
        [(position.symbol, targetNotional floats allocator request bestSymbol)]) ∨
    ((entrants floats allocator request = [] → rotation floats lower request = none) ∧
      decision.rotationTargets = []) := by
  unfold decideLegacy
  dsimp only
  rw [← consider_eq_nil]
  generalize consider floats allocator request request.ranked (freeSlots request) [] = considered
  obtain ⟨enter, rejected⟩ := considered
  cases enter with
  | cons entry rest => simp
  | nil =>
    cases rotation floats lower request with
    | none => simp
    | some proposed => exact Or.inl ⟨proposed.1, proposed.2, rfl, rfl, rfl, rfl⟩

/-- What is rotated out and in. -/
theorem rotates_of_mem {symbol target : String}
    (hmem : (symbol, target) ∈ (decideLegacy floats lower allocator request).rotationTargets) :
    Rotates floats lower allocator request target ∧
      (∃ position : OpenPosition ν, position.symbol = symbol ∧
        weakest floats (request.openPositions.filter fun position ↦
          !underManualReview lower position) = some position) ∧
      (decideLegacy floats lower allocator request).rotationNotionals.lookup symbol =
        some (targetNotional floats allocator request target) := by
  rcases rotations_decideLegacy floats lower allocator request with
    ⟨position, bestSymbol, hnone, hrotation, htargets, hnotionals⟩ | ⟨-, htargets⟩
  · rw [htargets, List.mem_singleton, Prod.mk.injEq] at hmem
    obtain ⟨rfl, rfl⟩ := hmem
    obtain ⟨bestRate, rest, hranked, hunblocked, hclosed, hweakest, hgap⟩ :=
      rotation_eq_some.mp hrotation
    refine ⟨⟨hnone, bestRate, rest, position, hranked, hunblocked, hclosed, hweakest, hgap⟩,
      ⟨position, rfl, hweakest⟩, ?_⟩
    rw [hnotionals, List.lookup_cons_self]
  · rw [htargets] at hmem
    cases hmem

theorem mem_of_rotates {target : String}
    (hrotates : Rotates floats lower allocator request target) :
    ∃ symbol, (symbol, target) ∈
      (decideLegacy floats lower allocator request).rotationTargets := by
  obtain ⟨hnone, bestRate, rest, position, hproposed⟩ := hrotates
  have hrotation := rotation_eq_some.mpr ⟨bestRate, rest, hproposed⟩
  rcases rotations_decideLegacy floats lower allocator request with
    ⟨other, bestSymbol, -, hother, htargets, -⟩ | ⟨hnever, -⟩
  · rw [hrotation, Option.some.injEq, Prod.mk.injEq] at hother
    exact ⟨other.symbol, by rw [htargets, hother.2, List.mem_singleton]⟩
  · rw [hnever hnone] at hrotation
    cases hrotation

theorem fits_iff {symbol : String} :
    fits floats allocator request symbol = true ↔ symbol ∉ request.blockedSymbols ∧
      symbol ∉ request.openSymbols ∧ lowEntryDepth floats allocator request symbol = false := by
  simp [fits, and_assoc]

/-- The weakest position is open and not under review. With one position to a symbol, no other one
of the symbol is. -/
theorem rotated_out (hdistinct : request.openSymbols.Nodup) {position : OpenPosition ν}
    (hweakest : weakest floats (request.openPositions.filter fun position ↦
      !underManualReview lower position) = some position) :
    position.symbol ∈ request.openSymbols ∧ ∀ other ∈ request.openPositions,
      other.symbol = position.symbol → underManualReview lower other = false := by
  obtain ⟨hopen, hmanaged⟩ := List.mem_filter.mp (weakest_mem hweakest)
  refine ⟨List.mem_map_of_mem hopen, fun other hother hsymbol ↦ ?_⟩
  rw [List.inj_on_of_nodup_map hdistinct hother hopen hsymbol]
  simpa using hmanaged

/-- Every entry and every rotation target is admissible just if no depth of an entry is a NaN and
the head of the ranking has the depth when it is rotated in. -/
theorem admissible_iff (hlawful : floats.Lawful) (hdistinct : request.openSymbols.Nodup) :
    Admissible floats lower allocator request (decideLegacy floats lower allocator request) ↔
      Deep floats lower allocator request := by
  have hentrants : ∀ candidate ∈ entrants floats allocator request,
      candidate ∈ request.ranked ∧ fits floats allocator request candidate.1 = true :=
    fun candidate hcandidate ↦ List.mem_filter.mp (List.mem_of_mem_take hcandidate)
  constructor
  · intro hadmissible
    constructor
    · intro candidate hcandidate
      have henter := hadmissible.entries candidate.1 _
        (enter_decideLegacy ▸ List.mem_map_of_mem hcandidate)
      exact ((hlawful.atLeast_iff _ _).mp henter.deep).2
    · intro bestSymbol hrotates
      obtain ⟨symbol, hmem⟩ := mem_of_rotates hrotates
      obtain ⟨-, -, hnotional⟩ := rotates_of_mem hmem
      obtain ⟨notional, hlookup, henterable⟩ := hadmissible.targets symbol bestSymbol hmem
      rw [hnotional, Option.some.injEq] at hlookup
      exact hlookup ▸ henterable.deep
  · intro hdeep
    constructor
    · intro hranked
      rw [enter_decideLegacy, List.map_map]
      have hsublist : (entrants floats allocator request).Sublist request.ranked :=
        (List.take_sublist _ _).trans List.filter_sublist
      exact hranked.sublist (hsublist.map Prod.fst)
    · intro symbol notional hmem
      rw [enter_decideLegacy] at hmem
      obtain ⟨candidate, hcandidate, hentry⟩ := List.mem_map.mp hmem
      obtain ⟨rfl, rfl⟩ := Prod.mk.inj hentry
      obtain ⟨hunblocked, hclosed, hdepth⟩ := fits_iff.mp (hentrants candidate hcandidate).2
      exact ⟨hunblocked, hclosed,
        (hlawful.atLeast_iff _ _).mpr ⟨hdepth, hdeep.known candidate hcandidate⟩⟩
    · rw [enter_decideLegacy, List.length_map]
      exact List.length_take_le _ _
    · intro symbol target hmem
      obtain ⟨-, ⟨position, rfl, hweakest⟩, -⟩ := rotates_of_mem hmem
      exact rotated_out hdistinct hweakest
    · intro symbol target hmem
      obtain ⟨hrotates, -, hnotional⟩ := rotates_of_mem hmem
      have htarget := hdeep.target target hrotates
      obtain ⟨-, bestRate, rest, position, -, hunblocked, hclosed, -⟩ := hrotates
      exact ⟨_, hnotional, hunblocked, hclosed, htarget⟩

/-! ### A rotation into a thin book -/

/-- Numbers without a NaN. -/
def exactFloats : Floats ℚ where
  less x y := x < y
  atLeast x y := y ≤ x
  isNan _ := false
  mul := (· * ·)
  sub := (· - ·)
  literal := id

theorem lawful_exactFloats : exactFloats.Lawful where
  atLeast_iff x y := by simp [exactFloats, not_lt]

/-- Every book has the same depth. -/
def allocatorOfDepth (depth : ℚ) : PortfolioAllocator ℚ := ⟨some fun _ ↦ depth, 1250, 2500⟩

/-- A weak position and a much better candidate. -/
def betterCandidate : Request ℚ where
  openPositions := [⟨"AAAUSDT", 0, none⟩]
  blockedSymbols := []
  notionalScale := 1
  rotationMinGapAnn := 3 / 100
  notionalOverrides := []
  ranked := [("BBBUSDT", 1)]

theorem admissible_iff_entered :
    Admissible exactFloats id (allocatorOfDepth 100000) betterCandidate
      (decideLegacy exactFloats id (allocatorOfDepth 100000) betterCandidate) := by
  refine (admissible_iff lawful_exactFloats (by decide)).mpr ⟨fun _ _ ↦ ⟨rfl, rfl⟩, ?_⟩
  rintro bestSymbol ⟨hnone, -⟩
  have hentered : entrants exactFloats (allocatorOfDepth 100000) betterCandidate ≠ [] := by
    decide +kernel
  exact absurd hnone hentered

/-- The candidate is refused as an entry for its depth, and proposed as the rotation target. -/
theorem rotation_into_thin_book :
    let decision := decideLegacy exactFloats id (allocatorOfDepth 0) betterCandidate
    betterCandidate.openSymbols.Nodup ∧
      decision.rejected = [("BBBUSDT", ["low_entry_depth"])] ∧
      decision.rotationTargets = [("AAAUSDT", "BBBUSDT")] ∧
      decision.rotationNotionals = [("AAAUSDT", 2500)] ∧
      ¬ Enterable exactFloats (allocatorOfDepth 0) betterCandidate "BBBUSDT" 2500 := by
  refine ⟨by decide, by decide +kernel, by decide +kernel, by decide +kernel, fun h ↦ ?_⟩
  exact absurd h.deep (by decide +kernel)

end Bongus.Portfolio.Allocator
