import Bongus.Lib.Dictionary
import Bongus.Lib.Framing
import Bongus.Outbox.Envelope

/-!
# Canonical bytes

The bytes that a command hash covers, in `bongus/ipc/protocol.py` and
`execution_engine/src/ipc.rs`. Each field stands on a line of its own behind its name: a text behind
its size, a number with a sign that ends it, a double as its sixteen digits. So the lines of a body
determine it (`encodeBody_inj`), and the first line tells a configuration from a risk command. Both
encoders write the normalized body of a command and so tell any two bodies apart
(`canonical_bytes_injective`).
-/

set_option autoImplicit false
set_option relaxedAutoImplicit false

namespace Bongus.Outbox

open Ipc Lib.Fallible Lib.Float64 Lib.Framing Lib.Records

/-! ### Values and their kinds -/

/-- A value has the type of a kind. -/
def Fits : Kind → Value → Prop
  | .string, .text _ => True
  | .int, .int _ => True
  | .float, .float _ => True
  | .bool, .bool _ => True
  | .optionalString, .text _ => True
  | .optionalString, .none => True
  | .optionalFloat, .float _ => True
  | .optionalFloat, .none => True
  | _, _ => False

theorem text_of_fits {value : Value} (hfits : Fits .string value) : ∃ text, value = .text text := by
  cases value with
  | text text => exact ⟨text, rfl⟩
  | _ => exact hfits.elim

theorem int_of_fits {value : Value} (hfits : Fits .int value) : ∃ n, value = .int n := by
  cases value with
  | int n => exact ⟨n, rfl⟩
  | _ => exact hfits.elim

theorem float_of_fits {value : Value} (hfits : Fits .float value) : ∃ x, value = .float x := by
  cases value with
  | float x => exact ⟨x, rfl⟩
  | _ => exact hfits.elim

theorem bool_of_fits {value : Value} (hfits : Fits .bool value) : ∃ flag, value = .bool flag := by
  cases value with
  | bool flag => exact ⟨flag, rfl⟩
  | _ => exact hfits.elim

theorem optionalText_of_fits {value : Value} (hfits : Fits .optionalString value) :
    value = .none ∨ ∃ text, value = .text text := by
  cases value with
  | none => exact Or.inl rfl
  | text text => exact Or.inr ⟨text, rfl⟩
  | _ => exact hfits.elim

theorem optionalFloat_of_fits {value : Value} (hfits : Fits .optionalFloat value) :
    value = .none ∨ ∃ x, value = .float x := by
  cases value with
  | none => exact Or.inl rfl
  | float x => exact Or.inr ⟨x, rfl⟩
  | _ => exact hfits.elim

/-! ### Lines -/

theorem hexBits_toList (x : F64) :
    x.hexBits.toList =
      (List.range 16).map fun place ↦ Nat.digitChar (x.toNat / 16 ^ (15 - place) % 16) := by
  rw [F64.hexBits, String.toList_ofList]

theorem hexBits_injective : Function.Injective fun x : F64 ↦ x.hexBits.toList := by
  intro x y hsame
  simp only [hexBits_toList] at hsame
  have hdigits : ∀ place < 16, x.toNat / 16 ^ place % 16 = y.toNat / 16 ^ place % 16 := by
    intro place hplace
    have hdigit := List.map_inj_left.mp hsame (15 - place) (by simp; omega)
    rw [show 15 - (15 - place) = place by omega] at hdigit
    exact digitChar_injOn (Nat.mod_lt _ (by norm_num)) (Nat.mod_lt _ (by norm_num)) hdigit
  have hsize := mod_pow_eq_of_digits hdigits
  rw [Nat.mod_eq_of_lt (by simpa using x.isLt), Nat.mod_eq_of_lt (by simpa using y.isLt)] at hsize
  exact BitVec.eq_of_toNat_eq hsize

theorem framed_hexBits : Framed fun x : F64 ↦ x.hexBits.toList := by
  have hlength : ∀ x : F64, x.hexBits.toList.length = 16 := by
    intro x
    rw [hexBits_toList, List.length_map, List.length_range]
  exact framed_of_length hexBits_injective hlength

theorem text_scalar (text : String) (rest : List Char) :
    ("s" ++ toString text.utf8ByteSize ++ ":" ++ text).toList ++ '\n' :: rest =
      's' :: ((toString text.utf8ByteSize).toList ++ ':' :: text.toList) ++ ('\n' :: rest) := by
  simp [String.toList_append]

theorem text_scalar_inj {first second : String} {rest others : List Char}
    (hsame : ("s" ++ toString first.utf8ByteSize ++ ":" ++ first).toList ++ '\n' :: rest =
      ("s" ++ toString second.utf8ByteSize ++ ":" ++ second).toList ++ '\n' :: others) :
    first = second ∧ rest = others := by
  rw [text_scalar, text_scalar] at hsame
  obtain ⟨hfirst, hrest⟩ := (framed_sized.cons 's') first second _ _ hsame
  exact ⟨hfirst, (List.cons.inj hrest).2⟩

theorem float_scalar_inj {x y : F64} {rest others : List Char}
    (hsame : ("f" ++ x.hexBits).toList ++ '\n' :: rest =
      ("f" ++ y.hexBits).toList ++ '\n' :: others) : x = y ∧ rest = others := by
  rw [String.toList_append, String.toList_append] at hsame
  obtain ⟨hbits, hrest⟩ := (framed_hexBits.cons 'f') x y _ _ hsame
  exact ⟨hbits, (List.cons.inj hrest).2⟩

theorem integer_scalar_inj {m n : ℤ} {rest others : List Char}
    (hsame : ("i" ++ toString m).toList ++ '\n' :: rest =
      ("i" ++ toString n).toList ++ '\n' :: others) : m = n ∧ rest = others := by
  have hline (k : ℤ) (more : List Char) : ("i" ++ toString k).toList ++ '\n' :: more =
      'i' :: ((toString k).toList ++ ['\n']) ++ more := by
    simp [String.toList_append]
  rw [hline, hline] at hsame
  exact (framed_integer.cons 'i') m n _ _ hsame

/-- The value of a line is determined, and what follows the line. -/
theorem canonicalScalar_inj {kind : Kind} {first second : Value} (hfirst : Fits kind first)
    (hsecond : Fits kind second) {rest others : List Char}
    (hsame : (canonicalScalar kind first).toList ++ '\n' :: rest =
      (canonicalScalar kind second).toList ++ '\n' :: others) :
    first = second ∧ rest = others := by
  cases kind with
  | string =>
    obtain ⟨first, rfl⟩ := text_of_fits hfirst
    obtain ⟨second, rfl⟩ := text_of_fits hsecond
    obtain ⟨rfl, rfl⟩ := text_scalar_inj hsame
    exact ⟨rfl, rfl⟩
  | int =>
    obtain ⟨m, rfl⟩ := int_of_fits hfirst
    obtain ⟨n, rfl⟩ := int_of_fits hsecond
    obtain ⟨rfl, rfl⟩ := integer_scalar_inj hsame
    exact ⟨rfl, rfl⟩
  | float =>
    obtain ⟨x, rfl⟩ := float_of_fits hfirst
    obtain ⟨y, rfl⟩ := float_of_fits hsecond
    obtain ⟨rfl, rfl⟩ := float_scalar_inj hsame
    exact ⟨rfl, rfl⟩
  | bool =>
    obtain ⟨flag, rfl⟩ := bool_of_fits hfirst
    obtain ⟨other, rfl⟩ := bool_of_fits hsecond
    cases flag with
    | false =>
      cases other with
      | false => exact ⟨rfl, by simpa [canonicalScalar] using hsame⟩
      | true => simp [canonicalScalar] at hsame
    | true =>
      cases other with
      | false => simp [canonicalScalar] at hsame
      | true => exact ⟨rfl, by simpa [canonicalScalar] using hsame⟩
  | optionalString =>
    -- An absent value is the sign `n`, which no present value starts with.
    obtain rfl | ⟨first, rfl⟩ := optionalText_of_fits hfirst
    · obtain rfl | ⟨second, rfl⟩ := optionalText_of_fits hsecond
      · exact ⟨rfl, by simpa [canonicalScalar] using hsame⟩
      · simp [canonicalScalar, String.toList_append] at hsame
    · obtain rfl | ⟨second, rfl⟩ := optionalText_of_fits hsecond
      · simp [canonicalScalar, String.toList_append] at hsame
      · obtain ⟨rfl, rfl⟩ := text_scalar_inj hsame
        exact ⟨rfl, rfl⟩
  | optionalFloat =>
    obtain rfl | ⟨x, rfl⟩ := optionalFloat_of_fits hfirst
    · obtain rfl | ⟨y, rfl⟩ := optionalFloat_of_fits hsecond
      · exact ⟨rfl, by simpa [canonicalScalar] using hsame⟩
      · simp [canonicalScalar, String.toList_append] at hsame
    · obtain rfl | ⟨y, rfl⟩ := optionalFloat_of_fits hsecond
      · simp [canonicalScalar, String.toList_append] at hsame
      · obtain ⟨rfl, rfl⟩ := float_scalar_inj hsame
        exact ⟨rfl, rfl⟩

/-! ### Bodies -/

/-- A body has values of the types of its fields. -/
def BodyFits (types : List (String × Kind)) (body : Record) : Prop :=
  ∀ entry ∈ types, Fits entry.2 (field body entry.1)

def bodyLines (types : List (String × Kind)) (body : Record) : List Char :=
  types.flatMap fun entry ↦
    (entry.1 ++ "=").toList ++ ((canonicalScalar entry.2 (field body entry.1)).toList ++ ['\n'])

theorem encodeBody_toList (magic : String) (types : List (String × Kind)) (body : Record) :
    (encodeBody magic types body).toList = magic.toList ++ bodyLines types body := by
  simp [encodeBody, bodyLines, String.toList_append, String.toList_join, List.flatMap_map]

/-- The lines of a body determine its fields. -/
theorem fields_eq_of_bodyLines {types : List (String × Kind)} {first second : Record}
    (hfirst : BodyFits types first) (hsecond : BodyFits types second)
    (hsame : bodyLines types first = bodyLines types second) :
    ∀ entry ∈ types, field first entry.1 = field second entry.1 := by
  induction types with
  | nil => exact fun entry hentry ↦ absurd hentry List.not_mem_nil
  | cons entry types ih =>
    simp only [bodyLines, List.flatMap_cons, List.append_assoc, List.singleton_append] at hsame
    obtain ⟨hvalue, hrest⟩ := canonicalScalar_inj (hfirst entry List.mem_cons_self)
      (hsecond entry List.mem_cons_self) (List.append_cancel_left hsame)
    intro other hother
    obtain rfl | hother := List.mem_cons.mp hother
    · exact hvalue
    · exact ih (fun e he ↦ hfirst e (List.mem_cons_of_mem _ he))
        (fun e he ↦ hsecond e (List.mem_cons_of_mem _ he)) hrest other hother

/-- A body has one field for each type, in order. -/
structure BodyOf (types : List (String × Kind)) (body : Record) : Prop where
  names : names body = types.map Prod.fst
  fits : BodyFits types body

theorem eq_map_names {record : Record} (hnodup : (names record).Nodup) :
    record = (names record).map fun name ↦ (name, field record name) := by
  rw [names, List.map_map]
  refine (List.map_id _).symm.trans (List.map_congr_left fun entry hentry ↦ ?_)
  have hlookup := (Lib.Dictionary.lookup_eq_some hnodup).mpr hentry
  simp [field, hlookup]

theorem eq_of_fields {first second : Record} (hnodup : (names first).Nodup)
    (hnames : names first = names second)
    (hfields : ∀ name ∈ names first, field first name = field second name) : first = second := by
  calc first = (names first).map fun name ↦ (name, field first name) := eq_map_names hnodup
    _ = (names second).map fun name ↦ (name, field second name) := by
        rw [← hnames]
        exact List.map_congr_left fun name hname ↦ by rw [hfields name hname]
    _ = second := (eq_map_names (hnames ▸ hnodup)).symm

theorem nodup_riskTypes : (canonicalFieldTypes.map Prod.fst).Nodup := by decide

theorem nodup_configSyncTypes : (configSyncCanonicalFieldTypes.map Prod.fst).Nodup := by decide

/-- The bytes of bodies of one kind are equal if the bodies are. -/
theorem encodeBody_inj {magic : String} {types : List (String × Kind)}
    (hnodup : (types.map Prod.fst).Nodup) {first second : Record} (hfirst : BodyOf types first)
    (hsecond : BodyOf types second) :
    encodeBody magic types first = encodeBody magic types second ↔ first = second := by
  constructor
  · intro hsame
    rw [← String.toList_inj, encodeBody_toList, encodeBody_toList] at hsame
    have hfields := fields_eq_of_bodyLines hfirst.fits hsecond.fits (List.append_cancel_left hsame)
    refine eq_of_fields (hfirst.names ▸ hnodup) (hfirst.names.trans hsecond.names.symm) ?_
    intro name hname
    rw [hfirst.names] at hname
    obtain ⟨entry, hentry, rfl⟩ := List.mem_map.mp hname
    exact hfields entry hentry
  · rintro rfl
    rfl

/-! ### Commands -/

/-- The normalized body of a command, in its domain. -/
inductive Command where
  | configSync (body : Record)
  | risk (body : Record)

def Command.bytes : Command → String
  | .configSync body =>
    encodeBody "bongus-config-sync-command-v3\n" configSyncCanonicalFieldTypes body
  | .risk body => encodeBody "bongus-execution-command-v3\n" canonicalFieldTypes body

inductive Command.WellFormed : Command → Prop
  | configSync {body : Record} (hbody : BodyOf configSyncCanonicalFieldTypes body) :
      WellFormed (.configSync body)
  | risk {body : Record} (hbody : BodyOf canonicalFieldTypes body) : WellFormed (.risk body)

theorem Command.wellFormed_ite {condition : Prop} [Decidable condition] {first second : Command}
    (hfirst : first.WellFormed) (hsecond : second.WellFormed) :
    (if condition then first else second).WellFormed := by
  by_cases hcondition : condition
  · rw [if_pos hcondition]
    exact hfirst
  · rw [if_neg hcondition]
    exact hsecond

/-- The first lines of the two domains differ. -/
theorem configSync_bytes_ne_risk (first second : Record) :
    (Command.configSync first).bytes ≠ (Command.risk second).bytes := by
  intro hsame
  rw [Command.bytes, Command.bytes, ← String.toList_inj, encodeBody_toList,
    encodeBody_toList] at hsame
  simp at hsame

theorem Command.bytes_inj {first second : Command} (hfirst : first.WellFormed)
    (hsecond : second.WellFormed) : first.bytes = second.bytes ↔ first = second := by
  cases hfirst with
  | configSync hfirst =>
    cases hsecond with
    | configSync hsecond =>
      rw [Command.configSync.injEq]
      exact encodeBody_inj nodup_configSyncTypes hfirst hsecond
    | risk hsecond => exact iff_of_false (configSync_bytes_ne_risk _ _) (by simp)
  | risk hfirst =>
    cases hsecond with
    | configSync hsecond => exact iff_of_false (configSync_bytes_ne_risk _ _).symm (by simp)
    | risk hsecond =>
      rw [Command.risk.injEq]
      exact encodeBody_inj nodup_riskTypes hfirst hsecond

/-! ### The producer -/

/-- What a reader gives has the type of a kind. -/
def Reads (read : Reader) (kind : Kind) : Prop :=
  ∀ record value, read record = .ok value → Fits kind value

theorem reads_textField (name default : String) (write : String → String) :
    Reads (textField name default write) .string := by
  intro record value hread
  obtain ⟨text, -, hvalue⟩ := bind_eq_ok.mp hread
  obtain rfl := pure_eq_ok.mp hvalue
  trivial

theorem reads_integerField (name : String) (default : ℤ) :
    Reads (integerField name default) .int := by
  intro record value hread
  obtain ⟨n, -, hvalue⟩ := bind_eq_ok.mp hread
  obtain rfl := pure_eq_ok.mp hvalue
  trivial

theorem reads_floatField (name : String) : Reads (floatField name) .float := by
  intro record value hread
  obtain ⟨x, -, hvalue⟩ := bind_eq_ok.mp hread
  obtain rfl := pure_eq_ok.mp hvalue
  trivial

theorem reads_boolField (name : String) : Reads (boolField name) .bool := by
  intro record value hread
  obtain ⟨flag, -, hvalue⟩ := bind_eq_ok.mp hread
  obtain rfl := pure_eq_ok.mp hvalue
  trivial

theorem reads_decimalField (name : String) : Reads (decimalField name) .string := by
  intro record value hread
  obtain ⟨text, -, hvalue⟩ := bind_eq_ok.mp hread
  obtain rfl := pure_eq_ok.mp hvalue
  trivial

theorem reads_quantityField : Reads quantityField .float := by
  intro record value hread
  obtain ⟨requested, -, hread⟩ := bind_eq_ok.mp hread
  obtain ⟨quantity, -, hvalue⟩ := bind_eq_ok.mp hread
  obtain rfl := pure_eq_ok.mp hvalue
  trivial

theorem reads_derivedField (name : String) (derive : String → String) :
    Reads (derivedField name derive) .string := by
  intro record value hread
  obtain ⟨intentId, -, hread⟩ := bind_eq_ok.mp hread
  exact reads_textField _ _ _ record value hread

theorem reads_hedgeBudgetField : Reads hedgeBudgetField .float := by
  intro record value hread
  unfold hedgeBudgetField at hread
  cases hlookup : record.lookup "max_unhedged_notional_ms" with
  | none =>
    rw [hlookup] at hread
    obtain rfl := pure_eq_ok.mp hread
    trivial
  | some found =>
    rw [hlookup] at hread
    exact reads_floatField _ record value hread

/-- A reader that first looks whether the field is there. -/
theorem reads_optional {name : String} {read : Reader} {kind optional : Kind}
    (hread : Reads read kind) (hnone : Fits optional .none)
    (hsome : ∀ value, Fits kind value → Fits optional value) :
    Reads (fun record ↦ if field record name = .none then pure .none else read record)
      optional := by
  intro record value hvalue
  dsimp only at hvalue
  split_ifs at hvalue
  · obtain rfl := pure_eq_ok.mp hvalue
    exact hnone
  · exact hsome value (hread record value hvalue)

theorem reads_optionalText {name : String} {read : Reader} (hread : Reads read .string) :
    Reads (fun record ↦ if field record name = .none then pure .none else read record)
      .optionalString := by
  refine reads_optional hread trivial fun value hvalue ↦ ?_
  obtain ⟨text, rfl⟩ := text_of_fits hvalue
  trivial

theorem reads_optionalFloatField (name : String) :
    Reads (optionalFloatField name) .optionalFloat := by
  refine reads_optional (reads_floatField name) trivial fun value hvalue ↦ ?_
  obtain ⟨x, rfl⟩ := float_of_fits hvalue
  trivial

section Producer

variable (python : Python)

theorem reads_riskBodyFields : ∀ entry ∈ canonicalFieldTypes,
    ∃ read, (riskBodyFields python).lookup entry.1 = some read ∧ Reads read entry.2 := by
  simp only [canonicalFieldTypes, List.forall_mem_cons]
  exact ⟨⟨_, rfl, reads_integerField _ _⟩, ⟨_, rfl, reads_textField _ _ _⟩,
    ⟨_, rfl, reads_textField _ _ _⟩, ⟨_, rfl, reads_textField _ _ _⟩,
    ⟨_, rfl, reads_textField _ _ _⟩, ⟨_, rfl, reads_textField _ _ _⟩,
    ⟨_, rfl, reads_textField _ _ _⟩, ⟨_, rfl, reads_textField _ _ _⟩,
    ⟨_, rfl, reads_quantityField⟩, ⟨_, rfl, reads_floatField _⟩, ⟨_, rfl, reads_floatField _⟩,
    ⟨_, rfl, reads_textField _ _ _⟩, ⟨_, rfl, reads_textField _ _ _⟩,
    ⟨_, rfl, reads_hedgeBudgetField⟩, ⟨_, rfl, reads_integerField _ _⟩,
    ⟨_, rfl, reads_floatField _⟩, ⟨_, rfl, reads_textField _ _ _⟩,
    ⟨_, rfl, reads_optionalText (reads_textField _ _ _)⟩, ⟨_, rfl, reads_boolField _⟩,
    ⟨_, rfl, reads_boolField _⟩, ⟨_, rfl, reads_optionalFloatField _⟩,
    ⟨_, rfl, reads_optionalFloatField _⟩, ⟨_, rfl, reads_decimalField _⟩,
    ⟨_, rfl, reads_optionalText (reads_decimalField _)⟩,
    ⟨_, rfl, reads_optionalText (reads_decimalField _)⟩,
    ⟨_, rfl, reads_optionalText (reads_decimalField _)⟩,
    ⟨_, rfl, reads_optionalText (reads_decimalField _)⟩, ⟨_, rfl, reads_derivedField _ _⟩,
    ⟨_, rfl, reads_derivedField _ _⟩, ⟨_, rfl, reads_derivedField _ _⟩,
    ⟨_, rfl, reads_derivedField _ _⟩, fun _ h ↦ absurd h List.not_mem_nil⟩

theorem reads_configSyncBodyFields : ∀ entry ∈ configSyncCanonicalFieldTypes,
    ∃ read, (configSyncBodyFields python).lookup entry.1 = some read ∧ Reads read entry.2 := by
  simp only [configSyncCanonicalFieldTypes, List.forall_mem_cons]
  exact ⟨⟨_, rfl, reads_integerField _ _⟩, ⟨_, rfl, reads_textField _ _ _⟩,
    ⟨_, rfl, reads_textField _ _ _⟩, ⟨_, rfl, reads_textField _ _ _⟩,
    ⟨_, rfl, reads_textField _ _ _⟩, ⟨_, rfl, reads_textField _ _ _⟩,
    ⟨_, rfl, reads_textField _ _ _⟩, ⟨_, rfl, reads_textField _ _ _⟩,
    ⟨_, rfl, reads_textField _ _ _⟩, fun _ h ↦ absurd h List.not_mem_nil⟩

/-- A table whose readers have the types of the fields makes a body of them. -/
theorem bodyOf_readFields {types : List (String × Kind)} {table : List (String × Reader)}
    (hreads : ∀ entry ∈ types, ∃ read, table.lookup entry.1 = some read ∧ Reads read entry.2)
    (hnames : table.map Prod.fst = types.map Prod.fst) {payload body : Record}
    (hbody : readFields table payload = .ok body) : BodyOf types body where
  names := (names_readFields hbody).trans hnames
  fits entry hentry := by
    obtain ⟨read, hread, hkind⟩ := hreads entry hentry
    obtain ⟨value, hvalue, hlookup⟩ := lookup_readFields hbody hread
    rw [field, hlookup, Option.getD_some]
    exact hkind payload value hvalue

/-- The normalized body of a payload. -/
def normalized (payload : Record) : Except String Command :=
  if isConfigSyncPayload python payload then do
    return .configSync (← canonicalConfigSyncBody python payload)
  else do
    return .risk (← canonicalCommandBody python payload)

variable {python}

theorem wellFormed_of_normalized {payload : Record} {command : Command}
    (hcommand : normalized python payload = .ok command) : command.WellFormed := by
  unfold normalized at hcommand
  split_ifs at hcommand
  · obtain ⟨body, hbody, hvalue⟩ := bind_eq_ok.mp hcommand
    obtain rfl := pure_eq_ok.mp hvalue
    exact .configSync (bodyOf_readFields (reads_configSyncBodyFields python) rfl
      (exists_fields_of_configSyncBody hbody))
  · obtain ⟨body, hbody, hvalue⟩ := bind_eq_ok.mp hcommand
    obtain rfl := pure_eq_ok.mp hvalue
    exact .risk (bodyOf_readFields (reads_riskBodyFields python) rfl
      (exists_fields_of_body hbody))

/-- The bytes of a payload are those of its normalized body. -/
theorem canonicalCommandBytes_eq_ok {payload : Record} {bytes : String} :
    canonicalCommandBytes python payload = .ok bytes ↔
      ∃ command, normalized python payload = .ok command ∧ command.bytes = bytes := by
  unfold canonicalCommandBytes normalized
  split_ifs
  · simp only [bind_eq_ok, pure_eq_ok]
    constructor
    · rintro ⟨body, hbody, rfl⟩
      exact ⟨_, ⟨body, hbody, rfl⟩, rfl⟩
    · rintro ⟨_, ⟨body, hbody, rfl⟩, rfl⟩
      exact ⟨body, hbody, rfl⟩
  · simp only [bind_eq_ok, pure_eq_ok]
    constructor
    · rintro ⟨body, hbody, rfl⟩
      exact ⟨_, ⟨body, hbody, rfl⟩, rfl⟩
    · rintro ⟨_, ⟨body, hbody, rfl⟩, rfl⟩
      exact ⟨body, hbody, rfl⟩

end Producer

/-! ### The engine -/

section Engine

variable (crates : Crates)

/-- An absent field is the value `none`. -/
def ofOption {α : Type} (wrap : α → Value) : Option α → Value
  | none => .none
  | some value => wrap value

/-- The normalized body of a configuration command of the engine. -/
def configSyncBody (instruction : AlphaInstruction) : Record :=
  [("schema_version", .int (instruction.schemaVersion.getD executionProtocolVersion : ℕ)),
    ("account_id", .text (trimmed (orEmpty instruction.accountId))),
    ("environment", .text (trimmed (orEmpty instruction.environment))),
    ("strategy_id", .text (trimmed (orEmpty instruction.strategyId))),
    ("cycle_id", .text (trimmed (orEmpty instruction.cycleId))),
    ("config_version_hash", .text (trimmed (orEmpty instruction.configVersionHash))),
    ("intent", .text configSyncIntent),
    ("intent_id", .text (trimmed (orEmpty instruction.intentId))),
    ("config_canonical_json", .text (orEmpty instruction.configCanonicalJson))]

/-- The normalized body of a risk command of the engine. -/
def riskBody (instruction : AlphaInstruction) : Record :=
  [("schema_version", .int (instruction.schemaVersion.getD executionProtocolVersion : ℕ)),
    ("account_id", .text (trimmed (orEmpty instruction.accountId))),
    ("environment", .text (trimmed (orEmpty instruction.environment))),
    ("strategy_id", .text (trimmed (orEmpty instruction.strategyId))),
    ("cycle_id", .text (trimmed (orEmpty instruction.cycleId))),
    ("config_version_hash", .text (trimmed (orEmpty instruction.configVersionHash))),
    ("symbol", .text (crates.toUppercase (trimmed (orEmpty instruction.symbol)))),
    ("intent", .text (crates.toUppercase (trimmed instruction.intent))),
    ("quantity", .float instruction.quantity),
    ("urgency", .float instruction.urgency),
    ("max_slippage_bps", .float instruction.maxSlippageBps),
    ("route_policy",
      .text (crates.toLowercase (trimmed (instruction.routePolicy.getD "legacy_dual_maker")))),
    ("route_model_version", .text (trimmed (instruction.routeModelVersion.getD "legacy-v1"))),
    ("max_unhedged_notional_ms",
      .float (instruction.maxUnhedgedNotionalMs.getD defaultMaxUnhedgedNotionalMs)),
    ("route_slice_count", .int (instruction.routeSliceCount.getD 1 : ℕ)),
    ("exposure_scale", .float instruction.exposureScale),
    ("intent_id", .text (trimmed (orEmpty instruction.intentId))),
    ("direction", ofOption .text
      (instruction.direction.map fun direction ↦ crates.toLowercase (trimmed direction))),
    ("skip_spot_leg", .bool instruction.skipSpotLeg),
    ("skip_perp_leg", .bool instruction.skipPerpLeg),
    ("spot_quantity", ofOption .float instruction.spotQuantity),
    ("perp_quantity", ofOption .float instruction.perpQuantity),
    ("requested_quantity_decimal", .text (orEmpty instruction.requestedQuantityDecimal)),
    ("actual_spot_inventory_decimal", ofOption .text instruction.actualSpotInventoryDecimal),
    ("actual_futures_inventory_decimal", ofOption .text instruction.actualFuturesInventoryDecimal),
    ("exit_spot_quantity_decimal", ofOption .text instruction.exitSpotQuantityDecimal),
    ("exit_futures_quantity_decimal", ofOption .text instruction.exitFuturesQuantityDecimal),
    ("spot_client_order_id", .text (trimmed (orEmpty instruction.spotClientOrderId))),
    ("perp_client_order_id", .text (trimmed (orEmpty instruction.perpClientOrderId))),
    ("spot_leg_id", .text (trimmed (orEmpty instruction.spotLegId))),
    ("perp_leg_id", .text (trimmed (orEmpty instruction.perpLegId)))]

/-- The normalized body of a command of the engine. -/
def normalizedInstruction (instruction : AlphaInstruction) : Command :=
  if instruction.isConfigSync then .configSync (configSyncBody instruction)
  else .risk (riskBody crates instruction)

/-- The text that the fingerprint of a command covers. -/
def instructionText (instruction : AlphaInstruction) : String :=
  if instruction.isConfigSync then instruction.canonicalConfigSyncCommandText
  else instruction.canonicalCommandText crates

theorem fits_ofOption_text (text : Option String) :
    Fits .optionalString (ofOption .text text) := by
  cases text with
  | none => trivial
  | some text => trivial

theorem fits_ofOption_float (x : Option F64) : Fits .optionalFloat (ofOption .float x) := by
  cases x with
  | none => trivial
  | some x => trivial

theorem bodyOf_configSyncBody (instruction : AlphaInstruction) :
    BodyOf configSyncCanonicalFieldTypes (configSyncBody instruction) where
  names := rfl
  fits := by
    simp only [BodyFits, configSyncCanonicalFieldTypes, List.forall_mem_cons]
    exact ⟨trivial, trivial, trivial, trivial, trivial, trivial, trivial, trivial, trivial,
      fun _ h ↦ absurd h List.not_mem_nil⟩

theorem bodyOf_riskBody (instruction : AlphaInstruction) :
    BodyOf canonicalFieldTypes (riskBody crates instruction) where
  names := rfl
  fits := by
    simp only [BodyFits, canonicalFieldTypes, List.forall_mem_cons]
    exact ⟨trivial, trivial, trivial, trivial, trivial, trivial, trivial, trivial, trivial, trivial,
      trivial, trivial, trivial, trivial, trivial, trivial, trivial, fits_ofOption_text _, trivial,
      trivial, fits_ofOption_float _, fits_ofOption_float _, trivial, fits_ofOption_text _,
      fits_ofOption_text _, fits_ofOption_text _, fits_ofOption_text _, trivial, trivial, trivial,
      trivial, fun _ h ↦ absurd h List.not_mem_nil⟩

/-! ### The lines of the engine -/

def lineOf (body : Record) (entry : String × Kind) : String :=
  entry.1 ++ "=" ++ canonicalScalar entry.2 (field body entry.1) ++ "\n"

theorem encodeBody_eq_join (magic : String) (types : List (String × Kind)) (body : Record) :
    encodeBody magic types body = String.join (magic :: types.map (lineOf body)) := by
  rw [String.join_cons]
  rfl

section Lines

variable {body : Record} {name : String}

theorem line_string {value : String} (hfield : field body name = .text value) :
    canonicalString name value = lineOf body (name, .string) := by
  rw [lineOf, hfield, ← String.toList_inj]
  simp [canonicalString, canonicalScalar, String.toList_append]

theorem line_integer {value : ℕ} (hfield : field body name = .int value) :
    canonicalInteger name value = lineOf body (name, .int) := by
  have htext : toString (value : ℤ) = toString value := rfl
  rw [lineOf, hfield, canonicalScalar, htext, ← String.toList_inj]
  simp [canonicalInteger, String.toList_append]

theorem line_float {value : F64} (hfield : field body name = .float value) :
    canonicalFloat name value = lineOf body (name, .float) := by
  rw [lineOf, hfield, ← String.toList_inj]
  simp [canonicalFloat, canonicalScalar, String.toList_append]

theorem line_boolean {value : Bool} (hfield : field body name = .bool value) :
    canonicalBoolean name value = lineOf body (name, .bool) := by
  rw [lineOf, hfield, ← String.toList_inj]
  cases value with
  | false => simp [canonicalBoolean, canonicalScalar, String.toList_append]
  | true => simp [canonicalBoolean, canonicalScalar, String.toList_append]

theorem line_optionalString {value : Option String}
    (hfield : field body name = ofOption .text value) :
    canonicalOptional canonicalString name value = lineOf body (name, .optionalString) := by
  rw [lineOf, hfield, ← String.toList_inj]
  cases value with
  | none => simp [canonicalOptional, ofOption, canonicalScalar, String.toList_append]
  | some value =>
    simp [canonicalOptional, ofOption, canonicalString, canonicalScalar, String.toList_append]

theorem line_optionalFloat {value : Option F64}
    (hfield : field body name = ofOption .float value) :
    canonicalOptional canonicalFloat name value = lineOf body (name, .optionalFloat) := by
  rw [lineOf, hfield, ← String.toList_inj]
  cases value with
  | none => simp [canonicalOptional, ofOption, canonicalScalar, String.toList_append]
  | some value =>
    simp [canonicalOptional, ofOption, canonicalFloat, canonicalScalar, String.toList_append]

end Lines

theorem canonicalConfigSyncCommandText_eq (instruction : AlphaInstruction) :
    instruction.canonicalConfigSyncCommandText =
      (Command.configSync (configSyncBody instruction)).bytes := by
  rw [Command.bytes, encodeBody_eq_join, AlphaInstruction.canonicalConfigSyncCommandText]
  refine congrArg String.join ?_
  simp only [configSyncCanonicalFieldTypes, List.map_cons, List.map_nil, List.cons.injEq]
  exact ⟨trivial, line_integer rfl, line_string rfl, line_string rfl, line_string rfl,
    line_string rfl, line_string rfl, line_string rfl, line_string rfl, line_string rfl, trivial⟩

theorem canonicalCommandText_eq (instruction : AlphaInstruction) :
    instruction.canonicalCommandText crates =
      (Command.risk (riskBody crates instruction)).bytes := by
  rw [Command.bytes, encodeBody_eq_join, AlphaInstruction.canonicalCommandText]
  refine congrArg String.join ?_
  simp only [canonicalFieldTypes, List.map_cons, List.map_nil, List.cons.injEq]
  exact ⟨trivial, line_integer rfl, line_string rfl, line_string rfl, line_string rfl,
    line_string rfl, line_string rfl, line_string rfl, line_string rfl, line_float rfl,
    line_float rfl, line_float rfl, line_string rfl, line_string rfl, line_float rfl,
    line_integer rfl, line_float rfl, line_string rfl, line_optionalString rfl, line_boolean rfl,
    line_boolean rfl, line_optionalFloat rfl, line_optionalFloat rfl, line_string rfl,
    line_optionalString rfl, line_optionalString rfl, line_optionalString rfl,
    line_optionalString rfl, line_string rfl, line_string rfl, line_string rfl, line_string rfl,
    trivial⟩

theorem instructionText_eq (instruction : AlphaInstruction) :
    instructionText crates instruction = (normalizedInstruction crates instruction).bytes := by
  unfold instructionText normalizedInstruction
  by_cases hconfig : instruction.isConfigSync = true
  · rw [if_pos hconfig, if_pos hconfig, canonicalConfigSyncCommandText_eq]
  · rw [if_neg hconfig, if_neg hconfig, canonicalCommandText_eq]

theorem wellFormed_normalizedInstruction (instruction : AlphaInstruction) :
    (normalizedInstruction crates instruction).WellFormed := by
  unfold normalizedInstruction
  exact Command.wellFormed_ite (.configSync (bodyOf_configSyncBody instruction))
    (.risk (bodyOf_riskBody crates instruction))

theorem instructionText_inj {first second : AlphaInstruction} :
    instructionText crates first = instructionText crates second ↔
      normalizedInstruction crates first = normalizedInstruction crates second := by
  rw [instructionText_eq, instructionText_eq]
  exact Command.bytes_inj (wellFormed_normalizedInstruction crates first)
    (wellFormed_normalizedInstruction crates second)

end Engine

theorem toUTF8_inj {first second : String} : first.toUTF8 = second.toUTF8 ↔ first = second :=
  String.toByteArray_inj

/-- Both encoders tell any two normalized bodies apart, and so do the hashes if no two texts have
one. -/
theorem canonical_bytes_injective (python : Python) (crates : Crates) :
    (∀ first second bytes others, canonicalCommandBytes python first = .ok bytes →
      canonicalCommandBytes python second = .ok others →
        (bytes.toUTF8 = others.toUTF8 ↔ normalized python first = normalized python second)) ∧
    (∀ first second body other bytes, normalized python first = .ok (.configSync body) →
      normalized python second = .ok (.risk other) →
        canonicalCommandBytes python first = .ok bytes →
          canonicalCommandBytes python second ≠ .ok bytes) ∧
    (∀ first second : AlphaInstruction,
      (instructionText crates first).toUTF8 = (instructionText crates second).toUTF8 ↔
        normalizedInstruction crates first = normalizedInstruction crates second) ∧
    (∀ first second : AlphaInstruction,
      first.canonicalConfigSyncCommandText ≠ second.canonicalCommandText crates) ∧
    (Function.Injective python.sha256 → ∀ first second hash,
      commandHash python first = .ok hash → commandHash python second = .ok hash →
        normalized python first = normalized python second) ∧
    (Function.Injective crates.sha256 → ∀ first second : AlphaInstruction,
      first.semanticFingerprint crates = second.semanticFingerprint crates →
        normalizedInstruction crates first = normalizedInstruction crates second) := by
  have hproducer : ∀ first second bytes others, canonicalCommandBytes python first = .ok bytes →
      canonicalCommandBytes python second = .ok others →
        (bytes = others ↔ normalized python first = normalized python second) := by
    intro first second bytes others hfirst hsecond
    obtain ⟨command, hcommand, rfl⟩ := canonicalCommandBytes_eq_ok.mp hfirst
    obtain ⟨other, hother, rfl⟩ := canonicalCommandBytes_eq_ok.mp hsecond
    rw [Command.bytes_inj (wellFormed_of_normalized hcommand) (wellFormed_of_normalized hother),
      hcommand, hother, Except.ok.injEq]
  refine ⟨?_, ?_, ?_, ?_, ?_, ?_⟩
  · intro first second bytes others hfirst hsecond
    rw [toUTF8_inj, hproducer first second bytes others hfirst hsecond]
  · intro first second body other bytes hconfig hrisk hfirst hsecond
    have hsame := (hproducer first second bytes bytes hfirst hsecond).mp rfl
    rw [hconfig, hrisk, Except.ok.injEq] at hsame
    cases hsame
  · intro first second
    rw [toUTF8_inj, instructionText_inj]
  · intro first second
    rw [canonicalConfigSyncCommandText_eq, canonicalCommandText_eq]
    exact configSync_bytes_ne_risk _ _
  · intro hcollision first second hash hfirst hsecond
    obtain ⟨bytes, hbytes, hhash⟩ := bind_eq_ok.mp hfirst
    obtain ⟨others, hothers, hsame⟩ := bind_eq_ok.mp hsecond
    refine (hproducer first second bytes others hbytes hothers).mp (hcollision ?_)
    rw [pure_eq_ok.mp hhash, pure_eq_ok.mp hsame]
  · intro hcollision first second hsame
    exact (instructionText_inj crates).mp (hcollision hsame)

/-- A producer whose hash is the text itself. -/
def verbatimPython : Python where
  sha256 := id
  upper text := String.ofList (text.toList.map Char.toUpper)
  lower text := String.ofList (text.toList.map Char.toLower)
  loads _ := none
  dumps _ := none
  readFloat _ := none

def verbatimCrates : Crates where
  sha256 := id
  toUppercase := verbatimPython.upper
  toLowercase := verbatimPython.lower
  parseJson _ := none
  jsonText _ := ""

def unitPayload (intentId : String) : Record :=
  [("intent_id", .text intentId), ("requested_quantity_decimal", .text "1"), ("quantity", .int 1)]

/-- Two payloads whose intents differ in white space have one hash, and one body. -/
theorem canonical_bytes_injective_stripped :
    Function.Injective verbatimPython.sha256 ∧
      (∃ hash, commandHash verbatimPython (unitPayload "a") = .ok hash ∧
        commandHash verbatimPython (unitPayload " a ") = .ok hash) ∧
      normalized verbatimPython (unitPayload "a") = normalized verbatimPython (unitPayload " a ") ∧
      normalizedInstruction verbatimCrates (instruction (unitPayload "a")) =
        normalizedInstruction verbatimCrates (instruction (unitPayload " a ")) := by
  have hinjective : Function.Injective verbatimPython.sha256 := fun _ _ h ↦ h
  have hsame : commandHash verbatimPython (unitPayload "a") =
      commandHash verbatimPython (unitPayload " a ") := by
    decide +kernel
  have hprint : (instruction (unitPayload "a")).semanticFingerprint verbatimCrates =
      (instruction (unitPayload " a ")).semanticFingerprint verbatimCrates := by
    decide +kernel
  have hok : (commandHash verbatimPython (unitPayload "a")).toOption.isSome = true := by
    decide +kernel
  obtain ⟨hash, hhash⟩ := Option.isSome_iff_exists.mp hok
  have hfirst := toOption_eq_some.mp hhash
  have hsecond := hsame.symm.trans hfirst
  obtain ⟨-, -, -, -, hproducer, hengine⟩ :=
    canonical_bytes_injective verbatimPython verbatimCrates
  exact ⟨hinjective, ⟨hash, hfirst, hsecond⟩, hproducer hinjective _ _ hash hfirst hsecond,
    hengine (fun _ _ h ↦ h) _ _ hprint⟩

end Bongus.Outbox
