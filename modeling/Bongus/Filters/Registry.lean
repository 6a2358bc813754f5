import Bongus.Filters.SymbolMetadata
import Mathlib.Data.List.Sort
import Mathlib.Data.String.Basic

/-!
# The registry of symbol filters

`ExchangeFilterRegistry.replace_market` and `get` of `bongus/engine/exchange_filters.py`. A snapshot
of a market is read into maps of its own, which then replace the entries of that market. A registry
shows one entry under a key, valid or invalid (`Shows`), and after any calls it shows for a market
what its last accepted snapshot lists (`shows_run`).
-/

set_option autoImplicit false
set_option relaxedAutoImplicit false

namespace Bongus.Filters

open Lib.Dictionary Lib.Documents Lib.Fallible

structure Key where
  market : Market
  symbol : String
deriving DecidableEq

structure Registry where
  metadata : List (Key × SymbolOrderMetadata)
  invalid : List (Key × List String)
deriving DecidableEq

structure MetadataUpdateResult where
  market : Market
  acceptedSymbols : List String
  rejectedSymbols : List (String × List String)
  changedSymbols : List String
  removedSymbols : List String
  sourceHash : String
deriving DecidableEq

/-- A call of `replace_market`. The time, given or of the clock, may not be finite. -/
structure Call where
  market : Market
  exchangeInfo : Json
  receivedAt : Option ℚ

inductive Fingerprint where
  | valid (sourceHash : String)
  | invalid (reasons : List String)
deriving DecidableEq

def sorted (symbols : List String) : List String := symbols.insertionSort (· ≤ ·)

/-! ### Reading a snapshot -/

section Snapshot

variable (language : Language)

/-- The maps of a snapshot while its symbols are read. -/
structure Pass extends Registry where
  seenSymbols : List String

/-- The name an object is filed under. -/
def nameOf (entries : List (String × Json)) : String :=
  if symbolOf language entries = "" then "<UNKNOWN>" else symbolOf language entries

def parseListed (market : Market) (timestamp : ℚ) (entries : List (String × Json)) :
    Except String SymbolOrderMetadata :=
  parseBinanceSymbolMetadata language entries market timestamp
    (language.canonicalHash (.dict entries))

def visitObject (market : Market) (timestamp : ℚ) (pass : Pass) (entries : List (String × Json)) :
    Pass :=
  let symbol := nameOf language entries
  let key := ⟨market, symbol⟩
  if symbol ∈ pass.seenSymbols then
    { pass with
      metadata := pass.metadata.filter fun entry ↦ decide (entry.1 ≠ key)
      invalid := assign pass.invalid key ["symbol:duplicate"] }
  else
    match parseListed language market timestamp entries with
    | .error message =>
      { pass with
        invalid := assign pass.invalid key [message]
        seenSymbols := symbol :: pass.seenSymbols }
    | .ok parsed =>
      { pass with
        metadata := assign pass.metadata ⟨market, parsed.symbol⟩ parsed
        seenSymbols := symbol :: pass.seenSymbols }

/-- Whatever is not an object is skipped. -/
def objects (rawSymbols : List Json) : List (List (String × Json)) :=
  rawSymbols.filterMap fun raw ↦
    match raw with
    | .dict entries => some entries
    | _ => none

def readSymbols (market : Market) (timestamp : ℚ) (rawSymbols : List Json) : Pass :=
  (objects rawSymbols).foldl (visitObject language market timestamp) ⟨⟨[], []⟩, []⟩

/-- The part of a call that can raise. It does not read the registry. -/
def readSnapshot (call : Call) : Except String Registry := do
  let some timestamp := call.receivedAt | throw "received_at must be finite"
  let .dict exchangeInfo := call.exchangeInfo | throw "object has no attribute 'get'"
  let .list rawSymbols := Json.get exchangeInfo "symbols" | throw "exchange_info.symbols:missing"
  let next := (readSymbols language call.market timestamp rawSymbols).toRegistry
  if next.metadata = [] ∧ next.invalid = [] then throw "exchange_info.symbols:empty"
  return next

end Snapshot

/-! ### Replacing a market -/

namespace Registry

def empty : Registry := ⟨[], []⟩

/-- The entries of one market, or of all others. -/
def ofMarket (registry : Registry) (keep : Market → Bool) : Registry where
  metadata := registry.metadata.filter fun entry ↦ decide (keep entry.1.market = true)
  invalid := registry.invalid.filter fun entry ↦ decide (keep entry.1.market = true)

def fingerprints (registry : Registry) : List (Key × Fingerprint) :=
  update (registry.metadata.map fun entry ↦ (entry.1, .valid entry.2.sourceHash))
    (registry.invalid.map fun entry ↦ (entry.1, .invalid entry.2))

def changedSymbols (previous next : Registry) : List String :=
  sorted ((next.fingerprints.filter fun entry ↦
    previous.fingerprints.lookup entry.1 ≠ some entry.2).map fun entry ↦ entry.1.symbol)

def removedSymbols (previous next : Registry) : List String :=
  sorted (((keys previous.fingerprints).filter fun key ↦
    decide (key ∉ keys next.fingerprints)).map Key.symbol)

def replace (registry : Registry) (market : Market) (next : Registry) : Registry :=
  let others := registry.ofMarket (· ≠ market)
  ⟨update others.metadata next.metadata, update others.invalid next.invalid⟩

def replaceMarket (language : Language) (registry : Registry) (call : Call) :
    Except String (Registry × MetadataUpdateResult) := do
  let next ← readSnapshot language call
  let previous := registry.ofMarket (· = call.market)
  return (registry.replace call.market next, {
    market := call.market
    acceptedSymbols := sorted ((keys next.metadata).map Key.symbol)
    rejectedSymbols := (next.invalid.map fun entry ↦ (entry.1.symbol, entry.2)).insertionSort
      fun first second ↦ first.1 ≤ second.1
    changedSymbols := changedSymbols previous next
    removedSymbols := removedSymbols previous next
    sourceHash := language.canonicalHash call.exchangeInfo })

def get (language : Language) (registry : Registry) (symbol : String) (market : Market) :
    Option SymbolOrderMetadata :=
  registry.metadata.lookup ⟨market, language.upper symbol⟩

/-- The registry after a call, which a call that raises leaves as it is. -/
def step (language : Language) (registry : Registry) (call : Call) : Registry :=
  match replaceMarket language registry call with
  | .ok (next, _) => next
  | .error _ => registry

/-- The registry after some calls. -/
def run (language : Language) (calls : List Call) : Registry :=
  calls.foldl (step language) empty

end Registry

/-! ### What a registry shows -/

/-- An entry is a record, or the reasons for which there is none. -/
abbrev Entry := Except (List String) SymbolOrderMetadata

def Entry.record : Entry → Option SymbolOrderMetadata
  | .ok record => some record
  | .error _ => none

def Entry.reasons : Entry → Option (List String)
  | .ok _ => none
  | .error reasons => some reasons

def Entry.fingerprint : Entry → Fingerprint
  | .ok record => .valid record.sourceHash
  | .error reasons => .invalid reasons

/-- The two maps of a registry hold the entries of a view. -/
structure Shows (registry : Registry) (view : Key → Option Entry) : Prop where
  metadata_keys : (keys registry.metadata).Nodup
  invalid_keys : (keys registry.invalid).Nodup
  metadata : ∀ key, registry.metadata.lookup key = (view key).bind Entry.record
  invalid : ∀ key, registry.invalid.lookup key = (view key).bind Entry.reasons

theorem shows_empty : Shows Registry.empty fun _ ↦ none where
  metadata_keys := nodup_keys_nil
  invalid_keys := nodup_keys_nil
  metadata _ := rfl
  invalid _ := rfl

namespace Shows

variable {registry : Registry} {view : Key → Option Entry} {key : Key}

theorem accept (hshows : Shows registry view) (hnone : view key = none)
    (record : SymbolOrderMetadata) :
    Shows ⟨assign registry.metadata key record, registry.invalid⟩
      (Function.update view key (some (.ok record))) where
  metadata_keys := nodup_assign hshows.metadata_keys key record
  invalid_keys := hshows.invalid_keys
  metadata other := by
    dsimp only
    rw [lookup_assign, Function.update_apply]
    split_ifs with hother
    · rfl
    · exact hshows.metadata other
  invalid other := by
    rw [Function.update_apply]
    split_ifs with hother
    · rw [hother, hshows.invalid, hnone]
      rfl
    · exact hshows.invalid other

theorem reject (hshows : Shows registry view) (hnone : view key = none) (reasons : List String) :
    Shows ⟨registry.metadata, assign registry.invalid key reasons⟩
      (Function.update view key (some (.error reasons))) where
  metadata_keys := hshows.metadata_keys
  invalid_keys := nodup_assign hshows.invalid_keys key reasons
  metadata other := by
    rw [Function.update_apply]
    split_ifs with hother
    · rw [hother, hshows.metadata, hnone]
      rfl
    · exact hshows.metadata other
  invalid other := by
    dsimp only
    rw [lookup_assign, Function.update_apply]
    split_ifs with hother
    · rfl
    · exact hshows.invalid other

theorem withdraw (hshows : Shows registry view) (key : Key) (reasons : List String) :
    Shows ⟨registry.metadata.filter fun entry ↦ decide (entry.1 ≠ key),
        assign registry.invalid key reasons⟩
      (Function.update view key (some (.error reasons))) where
  metadata_keys := nodup_filter hshows.metadata_keys _
  invalid_keys := nodup_assign hshows.invalid_keys key reasons
  metadata other := by
    dsimp only
    rw [lookup_filter_names (· ≠ key), Function.update_apply]
    by_cases hother : other = key
    · rw [if_neg (not_not.mpr hother), if_pos hother]
      rfl
    · rw [if_pos hother, if_neg hother, hshows.metadata]
  invalid other := by
    dsimp only
    rw [lookup_assign, Function.update_apply]
    split_ifs with hother
    · rfl
    · exact hshows.invalid other

theorem ofMarket (hshows : Shows registry view) (keep : Market → Bool) :
    Shows (registry.ofMarket keep) fun key ↦ if keep key.market = true then view key else none where
  metadata_keys := nodup_filter hshows.metadata_keys _
  invalid_keys := nodup_filter hshows.invalid_keys _
  metadata key := by
    rw [Registry.ofMarket, lookup_filter_names (fun key : Key ↦ keep key.market = true)]
    split_ifs with hkeep
    · exact hshows.metadata key
    · rfl
  invalid key := by
    rw [Registry.ofMarket, lookup_filter_names (fun key : Key ↦ keep key.market = true)]
    split_ifs with hkeep
    · exact hshows.invalid key
    · rfl

/-- The entries of a market are replaced, those of the other stay. -/
theorem replace {next : Registry} {nextView : Key → Option Entry} {market : Market}
    (hshows : Shows registry view) (hnext : Shows next nextView)
    (hmarket : ∀ key, key.market ≠ market → nextView key = none) :
    Shows (registry.replace market next)
      fun key ↦ if key.market = market then nextView key else view key := by
  have hothers := hshows.ofMarket (· ≠ market)
  refine ⟨nodup_update hothers.metadata_keys _, nodup_update hothers.invalid_keys _, ?_, ?_⟩
  · intro key
    rw [Registry.replace, lookup_update hnext.metadata_keys, hnext.metadata, hothers.metadata]
    by_cases hkey : key.market = market
    · simp [hkey]
    · simp [hkey, hmarket key hkey]
  · intro key
    rw [Registry.replace, lookup_update hnext.invalid_keys, hnext.invalid, hothers.invalid]
    by_cases hkey : key.market = market
    · simp [hkey]
    · simp [hkey, hmarket key hkey]

end Shows

/-! ### What a snapshot shows -/

section Reading

variable (language : Language) (market : Market) (timestamp : ℚ)

/-- The entry of a name that some objects are filed under. -/
def entryOf : List (List (String × Json)) → Option Entry
  | [] => none
  | [entries] => some ((parseListed language market timestamp entries).mapError fun message ↦
      [message])
  | _ => some (.error ["symbol:duplicate"])

def filed (listed : List (List (String × Json))) (name : String) : List (List (String × Json)) :=
  listed.filter fun entries ↦ nameOf language entries = name

/-- The entries that the objects of a snapshot make. -/
def snapshotView (listed : List (List (String × Json))) (key : Key) : Option Entry :=
  if key.market = market then entryOf language market timestamp (filed language listed key.symbol)
  else none

variable {language market timestamp}

theorem filed_append (listed : List (List (String × Json))) (entries : List (String × Json))
    (name : String) :
    filed language (listed ++ [entries]) name =
      filed language listed name ++ if nameOf language entries = name then [entries] else [] := by
  simp [filed, List.filter_append, List.filter_singleton]

theorem snapshotView_append (listed : List (List (String × Json)))
    (entries : List (String × Json)) :
    snapshotView language market timestamp (listed ++ [entries]) =
      Function.update (snapshotView language market timestamp listed)
        ⟨market, nameOf language entries⟩
        (entryOf language market timestamp
          (filed language listed (nameOf language entries) ++ [entries])) := by
  funext key
  obtain ⟨other, name⟩ := key
  rw [Function.update_apply]
  unfold snapshotView
  rw [filed_append]
  by_cases hmarket : other = market
  · by_cases hname : nameOf language entries = name
    · simp [hmarket, hname]
    · simp [hmarket, hname, Ne.symm hname]
  · simp [hmarket]

/-- A second object under a name is a duplicate. -/
theorem entryOf_append {listed : List (List (String × Json))} (hlisted : listed ≠ [])
    (entries : List (String × Json)) :
    entryOf language market timestamp (listed ++ [entries]) =
      some (.error ["symbol:duplicate"]) := by
  cases listed with
  | nil => exact absurd rfl hlisted
  | cons first rest =>
    cases rest with
    | nil => rfl
    | cons second rest => rfl

variable (language market timestamp) in
/-- A pass has read some objects. -/
structure Reads (listed : List (List (String × Json))) (pass : Pass) : Prop where
  shows : Shows pass.toRegistry (snapshotView language market timestamp listed)
  seen : ∀ name, name ∈ pass.seenSymbols ↔ filed language listed name ≠ []

theorem reads_empty : Reads language market timestamp [] ⟨⟨[], []⟩, []⟩ where
  shows := by
    have hview : snapshotView language market timestamp [] = fun _ ↦ none := by
      funext key
      simp [snapshotView, filed, entryOf]
    rw [hview]
    exact shows_empty
  seen name := by simp [filed]

theorem seen_append {listed : List (List (String × Json))} {pass : Pass}
    (hreads : Reads language market timestamp listed pass) (entries : List (String × Json))
    (name : String) :
    name ∈ nameOf language entries :: pass.seenSymbols ↔
      filed language (listed ++ [entries]) name ≠ [] := by
  rw [filed_append, List.mem_cons, hreads.seen]
  by_cases hname : nameOf language entries = name
  · simp [hname]
  · simp [hname, Ne.symm hname]

theorem parseListed_symbol {entries : List (String × Json)} {parsed : SymbolOrderMetadata}
    (hparse : parseListed language market timestamp entries = .ok parsed) :
    parsed.symbol = nameOf language entries ∧ symbolOf language entries ≠ "" := by
  obtain ⟨hsymbol, hnonempty, -⟩ := parse_eq_ok hparse
  rw [hsymbol] at hnonempty
  rw [nameOf, if_neg hnonempty]
  exact ⟨hsymbol, hnonempty⟩

/-- The next object is read. -/
theorem Reads.visitObject {listed : List (List (String × Json))} {pass : Pass}
    (hreads : Reads language market timestamp listed pass) (entries : List (String × Json)) :
    Reads language market timestamp (listed ++ [entries])
      (visitObject language market timestamp pass entries) := by
  unfold Filters.visitObject
  by_cases hseen : nameOf language entries ∈ pass.seenSymbols
  · rw [if_pos hseen]
    refine ⟨?_, fun name ↦ ?_⟩
    · rw [snapshotView_append, entryOf_append ((hreads.seen _).mp hseen)]
      exact hreads.shows.withdraw _ _
    · rw [← seen_append hreads, List.mem_cons, iff_or_self]
      rintro rfl
      exact hseen
  · rw [if_neg hseen]
    have hfiled : filed language listed (nameOf language entries) = [] :=
      not_not.mp fun h ↦ hseen ((hreads.seen _).mpr h)
    have hnone : snapshotView language market timestamp listed ⟨market, nameOf language entries⟩ =
        none := by
      simp [snapshotView, hfiled, entryOf]
    cases hparse : parseListed language market timestamp entries with
    | error message =>
      refine ⟨?_, seen_append hreads entries⟩
      rw [snapshotView_append, hfiled, List.nil_append, entryOf, hparse]
      exact hreads.shows.reject hnone [message]
    | ok parsed =>
      refine ⟨?_, seen_append hreads entries⟩
      rw [snapshotView_append, hfiled, List.nil_append, entryOf, hparse]
      dsimp only
      rw [(parseListed_symbol hparse).1]
      exact hreads.shows.accept hnone parsed

theorem Reads.foldl {listed : List (List (String × Json))} {pass : Pass}
    (hreads : Reads language market timestamp listed pass) (more : List (List (String × Json))) :
    Reads language market timestamp (listed ++ more)
      (more.foldl (Filters.visitObject language market timestamp) pass) := by
  induction more generalizing listed pass with
  | nil => rwa [List.append_nil]
  | cons entries more ih =>
    rw [List.append_cons]
    exact ih (hreads.visitObject entries)

variable (language market timestamp) in
theorem shows_readSymbols (rawSymbols : List Json) :
    Shows (readSymbols language market timestamp rawSymbols).toRegistry
      (snapshotView language market timestamp (objects rawSymbols)) :=
  (reads_empty.foldl (objects rawSymbols)).shows

end Reading

/-! ### Runs -/

section Runs

variable (language : Language)

/-- A snapshot with a time and a list of symbols. -/
structure Snapshot where
  timestamp : ℚ
  rawSymbols : List Json

/-- The snapshot of a call, if it is not refused. -/
def snapshotOf (call : Call) : Option Snapshot :=
  match readSnapshot language call, call.receivedAt, call.exchangeInfo with
  | .ok _, some timestamp, .dict exchangeInfo =>
    match Json.get exchangeInfo "symbols" with
    | .list rawSymbols => some ⟨timestamp, rawSymbols⟩
    | _ => none
  | _, _, _ => none

/-- The last snapshot of a market that was not refused. -/
def lastSnapshot (market : Market) (calls : List Call) : Option Snapshot :=
  calls.foldl (fun last call ↦
    if call.market = market then (snapshotOf language call).or last else last) none

/-- A call that is not refused reads the symbols of its snapshot. -/
theorem readSnapshot_cases (call : Call) :
    (∃ message, readSnapshot language call = .error message ∧ snapshotOf language call = none) ∨
      ∃ snapshot, snapshotOf language call = some snapshot ∧ readSnapshot language call =
        .ok (readSymbols language call.market snapshot.timestamp
          snapshot.rawSymbols).toRegistry := by
  cases hread : readSnapshot language call with
  | error message =>
    refine Or.inl ⟨message, rfl, ?_⟩
    rw [snapshotOf, hread]
  | ok next =>
    right
    obtain ⟨market, exchangeInfo, receivedAt⟩ := call
    cases receivedAt with
    | none => cases hread
    | some timestamp =>
      cases exchangeInfo with
      | dict exchangeInfo =>
        cases hsymbols : Json.get exchangeInfo "symbols" with
        | list rawSymbols =>
          refine ⟨⟨timestamp, rawSymbols⟩, ?_, ?_⟩
          · simp [snapshotOf, hread, hsymbols]
          · unfold readSnapshot at hread
            simp only [hsymbols, throw_bind, check_eq_ok, pure_eq_ok] at hread
            rw [hread.2]
        | _ =>
          unfold readSnapshot at hread
          simp only [hsymbols] at hread
          cases hread
      | _ => cases hread

/-- The entries that the last snapshots of the markets make. -/
def lastView (last : Market → Option Snapshot) (key : Key) : Option Entry :=
  (last key.market).bind fun snapshot ↦
    snapshotView language key.market snapshot.timestamp (objects snapshot.rawSymbols) key

/-- The last snapshots after one more call. -/
def nextLast (last : Market → Option Snapshot) (call : Call) (market : Market) :
    Option Snapshot :=
  if call.market = market then (snapshotOf language call).or (last market) else last market

variable {language}

theorem snapshotView_of_market_ne {market : Market} {timestamp : ℚ}
    {listed : List (List (String × Json))} {key : Key} (hkey : key.market ≠ market) :
    snapshotView language market timestamp listed key = none := if_neg hkey

theorem Registry.step_of_error {registry : Registry} {call : Call} {message : String}
    (hread : readSnapshot language call = .error message) :
    step language registry call = registry := by
  rw [step, replaceMarket, hread]
  rfl

theorem Registry.step_of_ok {registry next : Registry} {call : Call}
    (hread : readSnapshot language call = .ok next) :
    step language registry call = registry.replace call.market next := by
  rw [step, replaceMarket, hread]
  rfl

/-- A call that raises changes nothing, any other makes its snapshot the last of its market. -/
theorem shows_step {registry : Registry} {last : Market → Option Snapshot}
    (hshows : Shows registry (lastView language last)) (call : Call) :
    Shows (registry.step language call) (lastView language (nextLast language last call)) := by
  obtain ⟨message, hread, hsnapshot⟩ | ⟨snapshot, hsnapshot, hread⟩ :=
    readSnapshot_cases language call
  · have hlast : nextLast language last call = last := by
      funext market
      simp [nextLast, hsnapshot]
    rw [Registry.step_of_error hread, hlast]
    exact hshows
  · rw [Registry.step_of_ok hread]
    have hview : lastView language (nextLast language last call) = fun key ↦
        if key.market = call.market then
          snapshotView language call.market snapshot.timestamp (objects snapshot.rawSymbols) key
        else lastView language last key := by
      funext key
      by_cases hkey : key.market = call.market
      · simp [lastView, nextLast, hsnapshot, hkey]
      · simp [lastView, nextLast, hkey, Ne.symm hkey]
    rw [hview]
    exact hshows.replace (shows_readSymbols _ _ _ _) fun key hkey ↦ snapshotView_of_market_ne hkey

theorem lastSnapshot_append (calls : List Call) (call : Call) :
    (fun market ↦ lastSnapshot language market (calls ++ [call])) =
      nextLast language (fun market ↦ lastSnapshot language market calls) call := by
  funext market
  simp [lastSnapshot, nextLast]

/-- After any calls a registry shows what the last accepted snapshots list. -/
theorem shows_run (calls : List Call) :
    Shows (Registry.run language calls)
      (lastView language fun market ↦ lastSnapshot language market calls) := by
  induction calls using List.reverseRecOn with
  | nil => exact shows_empty
  | append_singleton calls call ih =>
    rw [Registry.run, List.foldl_append, lastSnapshot_append]
    exact shows_step ih call

/-! ### Fingerprints -/

namespace Shows

variable {registry : Registry} {view : Key → Option Entry}

theorem lookup_fingerprints (hshows : Shows registry view) (key : Key) :
    registry.fingerprints.lookup key = (view key).map Entry.fingerprint := by
  have hinvalid : (keys (registry.invalid.map fun entry ↦
      (entry.1, Fingerprint.invalid entry.2))).Nodup := by
    rw [keys_map_values fun _ ↦ Fingerprint.invalid]
    exact hshows.invalid_keys
  rw [Registry.fingerprints, lookup_update hinvalid, lookup_map_values fun _ ↦ Fingerprint.invalid,
    lookup_map_values fun _ (record : SymbolOrderMetadata) ↦ Fingerprint.valid record.sourceHash,
    hshows.metadata, hshows.invalid]
  cases view key with
  | none => rfl
  | some entry =>
    cases entry with
    | error reasons => rfl
    | ok record => rfl

theorem nodup_fingerprints (hshows : Shows registry view) :
    (keys registry.fingerprints).Nodup := by
  refine nodup_update ?_ _
  rw [keys_map_values fun _ (record : SymbolOrderMetadata) ↦
    Fingerprint.valid record.sourceHash]
  exact hshows.metadata_keys

theorem mem_fingerprints (hshows : Shows registry view) {key : Key} {fingerprint : Fingerprint} :
    (key, fingerprint) ∈ registry.fingerprints ↔
      ∃ entry, view key = some entry ∧ entry.fingerprint = fingerprint := by
  rw [← lookup_eq_some hshows.nodup_fingerprints, hshows.lookup_fingerprints,
    Option.map_eq_some_iff]

theorem mem_keys_fingerprints (hshows : Shows registry view) {key : Key} :
    key ∈ keys registry.fingerprints ↔ view key ≠ none := by
  rw [← not_iff_not, ← lookup_eq_none, hshows.lookup_fingerprints, not_not, Option.map_eq_none_iff]

end Shows

theorem pairwise_sorted {symbols : List String} (hnodup : symbols.Nodup) :
    (sorted symbols).Pairwise (· < ·) := by
  have hle : (sorted symbols).Pairwise (· ≤ ·) := List.pairwise_insertionSort _ _
  have hne : (sorted symbols).Nodup := (List.perm_insertionSort _ _).nodup_iff.mpr hnodup
  exact (hle.and hne).imp fun h ↦ lt_of_le_of_ne h.1 h.2

/-- Different keys of one market have different symbols. -/
theorem nodup_symbols {symbols : List Key} (hnodup : symbols.Nodup) {market : Market}
    (hmarket : ∀ key ∈ symbols, key.market = market) : (symbols.map Key.symbol).Nodup := by
  refine hnodup.map_on fun first hfirst second hsecond hsame ↦ ?_
  obtain ⟨firstMarket, firstSymbol⟩ := first
  obtain ⟨secondMarket, secondSymbol⟩ := second
  simp only [Key.mk.injEq]
  exact ⟨(hmarket _ hfirst).trans (hmarket _ hsecond).symm, hsame⟩

/-! ### What a call reports -/

/-- The entry under a key. -/
def Registry.entry (registry : Registry) (key : Key) : Option Entry :=
  match registry.metadata.lookup key with
  | some record => some (.ok record)
  | none => (registry.invalid.lookup key).map .error

theorem Shows.entry {registry : Registry} {view : Key → Option Entry} (hshows : Shows registry view)
    (key : Key) : registry.entry key = view key := by
  unfold Registry.entry
  rw [hshows.metadata, hshows.invalid]
  cases view key with
  | none => rfl
  | some entry =>
    cases entry with
    | error reasons => rfl
    | ok record => rfl

/-- A call reports exactly the symbols of its market whose fingerprints it changes or removes, in
order and once each. -/
structure Reports (before after : Registry) (market : Market) (result : MetadataUpdateResult) :
    Prop where
  changed : ∀ symbol, symbol ∈ result.changedSymbols ↔
    ∃ entry, after.entry ⟨market, symbol⟩ = some entry ∧
      (before.entry ⟨market, symbol⟩).map Entry.fingerprint ≠ some entry.fingerprint
  removed : ∀ symbol, symbol ∈ result.removedSymbols ↔
    before.entry ⟨market, symbol⟩ ≠ none ∧ after.entry ⟨market, symbol⟩ = none
  changed_sorted : result.changedSymbols.Pairwise (· < ·)
  removed_sorted : result.removedSymbols.Pairwise (· < ·)

section Differences

variable {previous next : Registry} {view nextView : Key → Option Entry} {market : Market}
  (hprevious : Shows previous view) (hnext : Shows next nextView)
  (hview : ∀ key, view key ≠ none → key.market = market)
  (hnextView : ∀ key, nextView key ≠ none → key.market = market)

include hprevious hnext hnextView

theorem mem_changedSymbols (symbol : String) :
    symbol ∈ previous.changedSymbols next ↔
      ∃ entry, nextView ⟨market, symbol⟩ = some entry ∧
        (view ⟨market, symbol⟩).map Entry.fingerprint ≠ some entry.fingerprint := by
  simp only [Registry.changedSymbols, sorted, List.mem_insertionSort, List.mem_map,
    List.mem_filter, decide_eq_true_eq, Prod.exists]
  constructor
  · rintro ⟨key, fingerprint, ⟨hmem, hdiffers⟩, rfl⟩
    obtain ⟨entry, hentry, rfl⟩ := hnext.mem_fingerprints.mp hmem
    obtain rfl := hnextView key (by rw [hentry]; exact Option.some_ne_none _)
    exact ⟨entry, hentry, by rwa [hprevious.lookup_fingerprints] at hdiffers⟩
  · rintro ⟨entry, hentry, hdiffers⟩
    refine ⟨⟨market, symbol⟩, entry.fingerprint,
      ⟨hnext.mem_fingerprints.mpr ⟨entry, hentry, rfl⟩, ?_⟩, rfl⟩
    rwa [hprevious.lookup_fingerprints]

omit hprevious in
theorem pairwise_changedSymbols : (previous.changedSymbols next).Pairwise (· < ·) := by
  refine pairwise_sorted ?_
  have hkeys := nodup_filter hnext.nodup_fingerprints
    fun entry ↦ previous.fingerprints.lookup entry.1 ≠ some entry.2
  have hmarket : ∀ key ∈ keys (next.fingerprints.filter fun entry ↦
      previous.fingerprints.lookup entry.1 ≠ some entry.2), key.market = market := by
    intro key hkey
    obtain ⟨⟨_, fingerprint⟩, hmem, rfl⟩ := List.mem_map.mp hkey
    obtain ⟨entry, hentry, -⟩ := hnext.mem_fingerprints.mp (List.mem_of_mem_filter hmem)
    exact hnextView _ (by rw [hentry]; exact Option.some_ne_none _)
  have hsymbols := nodup_symbols hkeys hmarket
  rwa [keys, List.map_map] at hsymbols

omit hnextView
include hview

theorem mem_removedSymbols (symbol : String) :
    symbol ∈ previous.removedSymbols next ↔
      view ⟨market, symbol⟩ ≠ none ∧ nextView ⟨market, symbol⟩ = none := by
  simp only [Registry.removedSymbols, sorted, List.mem_insertionSort, List.mem_map,
    List.mem_filter, decide_eq_true_eq, hprevious.mem_keys_fingerprints,
    hnext.mem_keys_fingerprints, not_not]
  constructor
  · rintro ⟨key, ⟨hbefore, hafter⟩, rfl⟩
    obtain rfl := hview key hbefore
    exact ⟨hbefore, hafter⟩
  · rintro ⟨hbefore, hafter⟩
    exact ⟨⟨market, symbol⟩, ⟨hbefore, hafter⟩, rfl⟩

omit hnext in
theorem pairwise_removedSymbols : (previous.removedSymbols next).Pairwise (· < ·) := by
  exact pairwise_sorted (nodup_symbols (hprevious.nodup_fingerprints.filter _) fun key hkey ↦
    hview key (hprevious.mem_keys_fingerprints.mp (List.mem_of_mem_filter hkey)))

end Differences

theorem reports_of_replaceMarket {registry next : Registry} {view : Key → Option Entry}
    (hshows : Shows registry view) {call : Call} {result : MetadataUpdateResult}
    (hcall : registry.replaceMarket language call = .ok (next, result)) :
    Reports registry next call.market result := by
  obtain ⟨message, hread, -⟩ | ⟨snapshot, -, hread⟩ := readSnapshot_cases language call
  · rw [Registry.replaceMarket, hread] at hcall
    cases hcall
  · rw [Registry.replaceMarket, hread] at hcall
    obtain ⟨rfl, rfl⟩ := Prod.mk.inj (Except.ok.inj hcall)
    have hread := shows_readSymbols language call.market snapshot.timestamp snapshot.rawSymbols
    have hprevious := hshows.ofMarket (· = call.market)
    have hview : ∀ key : Key, (if decide (key.market = call.market) = true then view key
        else none) ≠ none → key.market = call.market := by
      intro key hkey
      by_contra hother
      simp [hother] at hkey
    have hnextView : ∀ key, snapshotView language call.market snapshot.timestamp
        (objects snapshot.rawSymbols) key ≠ none → key.market = call.market :=
      fun key hkey ↦ not_not.mp fun hother ↦ hkey (snapshotView_of_market_ne hother)
    have hafter := hshows.replace hread fun key hkey ↦ snapshotView_of_market_ne hkey
    refine ⟨fun symbol ↦ ?_, fun symbol ↦ ?_, ?_, ?_⟩
    · rw [mem_changedSymbols hprevious hread hnextView, hafter.entry, hshows.entry]
      simp
    · rw [mem_removedSymbols hprevious hread hview, hafter.entry, hshows.entry]
      simp
    · exact pairwise_changedSymbols hread hnextView
    · exact pairwise_removedSymbols hprevious hview

/-! ### The snapshot behind a record -/

theorem entryOf_record {market : Market} {timestamp : ℚ} {listed : List (List (String × Json))}
    {record : SymbolOrderMetadata} :
    (entryOf language market timestamp listed).bind Entry.record = some record ↔
      ∃ entries, listed = [entries] ∧
        parseListed language market timestamp entries = .ok record := by
  cases listed with
  | nil => simp [entryOf]
  | cons first rest =>
    cases rest with
    | nil =>
      cases hparse : parseListed language market timestamp first with
      | error message => simp [entryOf, hparse, Except.mapError, Entry.record]
      | ok parsed => simp [entryOf, hparse, Except.mapError, Entry.record]
    | cons second rest => simp [entryOf, Entry.record]

variable (language) in
/-- The objects of a snapshot that list a symbol. -/
def listing (snapshot : Snapshot) (symbol : String) : List (List (String × Json)) :=
  (objects snapshot.rawSymbols).filter fun entries ↦ symbolOf language entries = symbol

theorem filed_of_ne {listed : List (List (String × Json))} {symbol : String} (hempty : symbol ≠ "")
    (hplaceholder : symbol ≠ "<UNKNOWN>") :
    filed language listed symbol =
      listed.filter fun entries ↦ symbolOf language entries = symbol := by
  refine List.filter_congr fun entries _ ↦ ?_
  unfold nameOf
  split_ifs with hmissing
  · simp [hmissing, Ne.symm hempty, Ne.symm hplaceholder]
  · rfl

theorem filed_empty (listed : List (List (String × Json))) : filed language listed "" = [] := by
  refine List.filter_eq_nil_iff.mpr fun entries _ ↦ ?_
  unfold nameOf
  split_ifs with hmissing
  · simp
  · simpa using hmissing

/-- The object under a name that parses is the one that lists the symbol. -/
theorem filed_iff {market : Market} {snapshot : Snapshot} {symbol : String}
    (hplaceholder : symbol ≠ "<UNKNOWN>") {entries : List (String × Json)}
    {record : SymbolOrderMetadata}
    (hparse : parseListed language market snapshot.timestamp entries = .ok record) :
    filed language (objects snapshot.rawSymbols) symbol = [entries] ↔
      listing language snapshot symbol = [entries] := by
  by_cases hempty : symbol = ""
  · subst hempty
    rw [filed_empty]
    refine iff_of_false (List.cons_ne_nil _ _).symm fun hlisting ↦ ?_
    have hmem : entries ∈ listing language snapshot "" := by
      rw [hlisting]
      exact List.mem_singleton_self _
    exact (parseListed_symbol hparse).2 (of_decide_eq_true (List.mem_filter.mp hmem).2)
  · rw [filed_of_ne hempty hplaceholder, listing]

variable (language) in
/-- The registry mirrors the last snapshot of each market that did not raise, and a call reports
what it changes. -/
theorem registry_mirrors_snapshots (calls : List Call) :
    (∀ (symbol : String) (market : Market), language.upper symbol ≠ "<UNKNOWN>" →
      ∀ record, (Registry.run language calls).get language symbol market = some record ↔
        ∃ snapshot entries, lastSnapshot language market calls = some snapshot ∧
          listing language snapshot (language.upper symbol) = [entries] ∧
          parseListed language market snapshot.timestamp entries = .ok record) ∧
    ∀ call next result,
      (Registry.run language calls).replaceMarket language call = .ok (next, result) →
        Reports (Registry.run language calls) next call.market result := by
  constructor
  · intro symbol market hplaceholder record
    rw [Registry.get, (shows_run calls).metadata, lastView]
    cases lastSnapshot language market calls with
    | none => simp
    | some snapshot =>
      rw [Option.bind_some, snapshotView, if_pos rfl, entryOf_record]
      constructor
      · rintro ⟨entries, hfiled, hparse⟩
        exact ⟨snapshot, entries, rfl, (filed_iff hplaceholder hparse).mp hfiled, hparse⟩
      · rintro ⟨_, entries, hsnapshot, hlisting, hparse⟩
        obtain rfl := Option.some.inj hsnapshot
        exact ⟨entries, (filed_iff hplaceholder hparse).mpr hlisting, hparse⟩
  · intro call next result hcall
    exact reports_of_replaceMarket (shows_run calls) hcall


end Runs

/-! ### A snapshot that is repeated -/

/-- A language with a few decimals. -/
def sampleLanguage : Language where
  str value := match value with
    | .text text => text
    | _ => ""
  upper text := String.ofList (text.toList.map Char.toUpper)
  lower text := String.ofList (text.toList.map Char.toLower)
  decimal text := ([("1", 1), ("2", 2), ("3", 3), ("100", 100)].lookup text).map some
  canonicalHash _ := "hash"

/-- A lot of step two beside a market lot of step three. -/
def sampleFilters : List Json :=
  [.dict [("filterType", .text "PRICE_FILTER"), ("minPrice", .text "1"), ("maxPrice", .text "100"),
      ("tickSize", .text "1")],
    .dict [("filterType", .text "LOT_SIZE"), ("minQty", .text "1"), ("maxQty", .text "100"),
      ("stepSize", .text "2")],
    .dict [("filterType", .text "MARKET_LOT_SIZE"), ("minQty", .text "1"),
      ("maxQty", .text "100"), ("stepSize", .text "3")],
    .dict [("filterType", .text "MIN_NOTIONAL"), ("minNotional", .text "1")]]

def sampleObject : List (String × Json) :=
  [("symbol", .text " btc"), ("status", .text "TRADING"), ("filters", .list sampleFilters)]

def sampleCall (receivedAt : ℚ) : Call where
  market := .spot
  exchangeInfo := .dict [("symbols", .list [.dict sampleObject])]
  receivedAt := some receivedAt

def sampleRegistry : Registry := Registry.run sampleLanguage [sampleCall 1]

/-- A snapshot that comes again renews the record of its symbol, and the call reports nothing. A
query that is not trimmed does not find the symbol. -/
theorem renewed_record_unreported :
    (∃ next result,
      sampleRegistry.replaceMarket sampleLanguage (sampleCall 2) = .ok (next, result) ∧
        result.changedSymbols = [] ∧ result.removedSymbols = [] ∧
        sampleRegistry.entry ⟨.spot, "BTC"⟩ ≠ next.entry ⟨.spot, "BTC"⟩) ∧
      (sampleRegistry.get sampleLanguage "btc" .spot).isSome = true ∧
      sampleRegistry.get sampleLanguage " btc" .spot = none := by
  refine ⟨⟨_, _, rfl, ?_, ?_, ?_⟩, ?_, ?_⟩
  · decide +kernel
  · decide +kernel
  · decide +kernel
  · decide +kernel
  · decide +kernel

theorem registry_mirrors_snapshots_listed :
    (∃ record snapshot entries, sampleRegistry.get sampleLanguage "btc" .spot = some record ∧
      lastSnapshot sampleLanguage .spot [sampleCall 1] = some snapshot ∧
      listing sampleLanguage snapshot "BTC" = [entries] ∧
      parseListed sampleLanguage .spot snapshot.timestamp entries = .ok record) ∧
    ∃ next result,
      sampleRegistry.replaceMarket sampleLanguage (sampleCall 2) = .ok (next, result) ∧
        Reports sampleRegistry next .spot result := by
  have hmirrors := registry_mirrors_snapshots sampleLanguage [sampleCall 1]
  constructor
  · have hlisted : (sampleRegistry.get sampleLanguage "btc" .spot).isSome = true := by
      decide +kernel
    have hupper : sampleLanguage.upper "btc" = "BTC" := by decide +kernel
    obtain ⟨record, hrecord⟩ := Option.isSome_iff_exists.mp hlisted
    obtain ⟨snapshot, entries, hlast, hlisting, hparse⟩ :=
      (hmirrors.1 "btc" .spot (by rw [hupper]; decide) record).mp hrecord
    exact ⟨record, snapshot, entries, hrecord, hlast, hupper ▸ hlisting, hparse⟩
  · exact ⟨_, _, rfl, hmirrors.2 (sampleCall 2) _ _ rfl⟩

end Bongus.Filters
