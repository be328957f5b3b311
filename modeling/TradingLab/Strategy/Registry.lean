import Mathlib.Data.List.Sort
import TradingLab.Decimal.Trim
import TradingLab.Json.Members
import TradingLab.Strategy.Contracts

/-!
# The strategy registry

A configuration gives each parameter of a registered strategy a number. It is
held with its numbers in their shortest text and in the order of their names,
so its entry in the registry tells the numbers and nothing about how they were
written.
-/

namespace TradingLab

open List Decimal

structure RegistryError where
  message : String
deriving Repr, DecidableEq

namespace StrategyRegistry

inductive ParameterKind where
  | integer
  | decimal
deriving Repr, DecidableEq

def ParameterKind.value : ParameterKind → String
  | integer => "integer"
  | decimal => "decimal"

/-- A lower-case letter and at most thirty-nine letters, digits or underscores. -/
def namePattern (s : String) : Bool :=
  let isLower := fun c : Char => 'a' ≤ c && c ≤ 'z'
  match s.toList with
  | [] => false
  | c :: cs => isLower c && (cs.all fun d => isLower d || d.isDigit || d == '_') && cs.length ≤ 39

def reserved : List String :=
  ["quantity", "position_size", "broker", "api_key", "api_secret", "credential", "account",
    "order", "leverage", "paper_only", "live_master_lock", "spot_only", "allow_short",
    "allow_leverage"]

def numeric : Json → ℚ
  | .int n => n
  | .str s => (Decimal.ofText s).toRat
  | _ => 0

/-- The number of a value of exactly the declared type. -/
def _number (value : Json) (kind : ParameterKind) : Except RegistryError ℚ :=
  match kind, value with
  | .integer, .int n => .ok n
  | .decimal, .str s =>
      if Decimal.unsignedText 40 40 s then .ok (Decimal.ofText s).toRat
      else .error ⟨"Parameter must match its exact declared numeric type"⟩
  | _, _ => .error ⟨"Parameter must match its exact declared numeric type"⟩

/-- An integer as it is, and a text without the zeros at its end: nothing is rounded. -/
def trimmed : Json → Json
  | .str s => .str (String.ofList (Decimal.trimFraction s.toList))
  | value => value

def _canonicalValue (value : Json) (kind : ParameterKind) : Except RegistryError Json := do
  let _ ← _number value kind
  return trimmed value

inductive Admissible : ParameterKind → Json → Prop
  | integer (n : ℤ) : Admissible .integer (.int n)
  | decimal {s : String} (h : Decimal.unsignedText 40 40 s) : Admissible .decimal (.str s)

section
variable {value value' : Json} {kind : ParameterKind}

theorem _number_eq_ok {q : ℚ} :
    _number value kind = .ok q ↔ Admissible kind value ∧ q = numeric value := by
  constructor
  · intro h
    unfold _number at h
    split at h
    · cases h
      exact ⟨.integer _, rfl⟩
    · split at h <;> cases h
      exact ⟨.decimal ‹_›, rfl⟩
    · cases h
  · rintro ⟨hadmissible, rfl⟩
    cases hadmissible with
    | integer n => rfl
    | decimal h => exact if_pos h

theorem _canonicalValue_eq_ok {canonical : Json} :
    _canonicalValue value kind = .ok canonical ↔ Admissible kind value ∧ canonical = trimmed value := by
  unfold _canonicalValue
  rw [bind_eq_ok]
  constructor
  · rintro ⟨q, hq, h⟩
    cases h
    exact ⟨(_number_eq_ok.mp hq).1, rfl⟩
  · rintro ⟨h, rfl⟩
    exact ⟨_, _number_eq_ok.mpr ⟨h, rfl⟩, rfl⟩

namespace Admissible

theorem trimmed (h : Admissible kind value) : Admissible kind (trimmed value) := by
  cases h with
  | integer n => exact .integer n
  | @decimal s h =>
    apply decimal
    have hplain := (unsignedText_trimFraction (by norm_num)
      (negative_of_unsignedText (by norm_num) h)
      (unsignedText_bounds (by norm_num) h).2.2.2).mpr
      (onGrid_of_unsignedText (by norm_num) h)
    rwa [fixed_ofText_unsigned (by norm_num) h] at hplain

theorem numeric_trimmed (h : Admissible kind value) :
    numeric (StrategyRegistry.trimmed value) = numeric value := by
  cases h with
  | integer n => rfl
  | @decimal s h =>
    have hvalue := toRat_ofText_trimFraction (ofText s)
    rwa [fixed_ofText_unsigned (by norm_num) h] at hvalue

theorem trimmed_eq_iff (h : Admissible kind value) (h' : Admissible kind value') :
    StrategyRegistry.trimmed value = StrategyRegistry.trimmed value' ↔
      numeric value = numeric value' := by
  constructor
  · intro heq
    rw [← h.numeric_trimmed, heq, h'.numeric_trimmed]
  · intro heq
    cases h with
    | integer n =>
      cases h' with
      | integer m =>
        have hint : n = m := Int.cast_injective heq
        rw [hint]
    | @decimal s h =>
      cases h' with
      | @decimal t h' =>
        have hsign := (negative_of_unsignedText (by norm_num) h).trans
          (negative_of_unsignedText (by norm_num) h').symm
        have hcongr := trimFraction_congr hsign heq
        rw [fixed_ofText_unsigned (by norm_num) h,
          fixed_ofText_unsigned (by norm_num) h'] at hcongr
        exact congrArg Json.str hcongr

theorem trimmed_trimmed (h : Admissible kind value) :
    StrategyRegistry.trimmed (StrategyRegistry.trimmed value) = StrategyRegistry.trimmed value :=
  (h.trimmed.trimmed_eq_iff h).mpr h.numeric_trimmed

theorem canonical (h : Admissible kind value)
    (h0 : 0 ≤ numeric value) (h1 : numeric value ≤ 10000) : value.Canonical := by
  cases h with
  | decimal h => exact trivial
  | integer n =>
    have h1' : (n : ℚ) ≤ 10000 := h1
    have h0' : (0 : ℚ) ≤ n := h0
    norm_cast at h0' h1'
    have hn : n.natAbs < 10 ^ 5 := by omega
    have hn' := lt_of_lt_of_le hn (Nat.pow_le_pow_right (by norm_num) (by decide : 5 ≤ Json.maxIntDigits))
    exact (Nat.length_toDigits_le_iff (by decide) (by decide)).mpr hn'

end Admissible

end

namespace ParameterRule

structure Fields where
  name : String
  kind : ParameterKind
  minimum : Json
  maximum : Json

def Fields.postInit (rule : Fields) : Except RegistryError Fields := do
  raiseIf (¬ namePattern rule.name ∨ rule.name ∈ reserved) ⟨"Parameter rule identity is invalid"⟩
  let low ← _number rule.minimum rule.kind
  let high ← _number rule.maximum rule.kind
  raiseIf (¬ (0 ≤ low ∧ low ≤ high ∧ high ≤ 10000)) ⟨"Parameter rule bounds are invalid"⟩
  return { rule with
    minimum := ← _canonicalValue rule.minimum rule.kind
    maximum := ← _canonicalValue rule.maximum rule.kind }

end ParameterRule

structure ParameterRule extends ParameterRule.Fields where
  valid : toFields.postInit = .ok toFields

namespace ParameterRule

theorem Fields.postInit_eq_ok {rule built : Fields} : rule.postInit = .ok built ↔
    (namePattern rule.name ∧ rule.name ∉ reserved) ∧
      Admissible rule.kind rule.minimum ∧ Admissible rule.kind rule.maximum ∧
      (0 ≤ numeric rule.minimum ∧ numeric rule.minimum ≤ numeric rule.maximum ∧
        numeric rule.maximum ≤ 10000) ∧
      built = { rule with minimum := trimmed rule.minimum, maximum := trimmed rule.maximum } := by
  simp only [Fields.postInit, raiseIf_eq_ok, bind_eq_ok, _number_eq_ok, _canonicalValue_eq_ok,
    not_or, not_not]
  constructor
  · rintro ⟨-, hname, low, ⟨hlow, rfl⟩, high, ⟨hhigh, rfl⟩, -, hbounds, _, ⟨-, rfl⟩, _, ⟨-, rfl⟩, h⟩
    cases h
    exact ⟨hname, hlow, hhigh, hbounds, rfl⟩
  · rintro ⟨hname, hlow, hhigh, hbounds, rfl⟩
    exact ⟨(), hname, _, ⟨hlow, rfl⟩, _, ⟨hhigh, rfl⟩, (), hbounds, _, ⟨hlow, rfl⟩, _,
      ⟨hhigh, rfl⟩, rfl⟩

/-- A built rule builds itself again. -/
theorem Fields.postInit_built {rule built : Fields} (h : rule.postInit = .ok built) :
    built.postInit = .ok built := by
  obtain ⟨hname, hlow, hhigh, hbounds, rfl⟩ := postInit_eq_ok.mp h
  refine postInit_eq_ok.mpr ⟨hname, hlow.trimmed, hhigh.trimmed, ?_, ?_⟩
  · simpa only [hlow.numeric_trimmed, hhigh.numeric_trimmed] using hbounds
  · simp only [hlow.trimmed_trimmed, hhigh.trimmed_trimmed]

def of (rule : Fields) : Except RegistryError ParameterRule :=
  match h : rule.postInit with
  | .ok built => .ok ⟨built, Fields.postInit_built h⟩
  | .error e => .error e

def validate (rule : ParameterRule) (value : Json) : Except RegistryError Json := do
  let number ← _number value rule.kind
  let low ← _number rule.minimum rule.kind
  let high ← _number rule.maximum rule.kind
  raiseIf (¬ (low ≤ number ∧ number ≤ high)) ⟨"Parameter is outside its declared range"⟩
  _canonicalValue value rule.kind

variable {rule : ParameterRule} {value checked : Json}

theorem validate_eq_ok : rule.validate value = .ok checked ↔ Admissible rule.kind value ∧
    (numeric rule.minimum ≤ numeric value ∧ numeric value ≤ numeric rule.maximum) ∧
      checked = trimmed value := by
  obtain ⟨-, hlow, hhigh, -⟩ := Fields.postInit_eq_ok.mp rule.valid
  simp only [validate, raiseIf_eq_ok, bind_eq_ok, _number_eq_ok, _canonicalValue_eq_ok, not_not]
  constructor
  · rintro ⟨_, ⟨h, rfl⟩, _, ⟨-, rfl⟩, _, ⟨-, rfl⟩, -, hrange, -, rfl⟩
    exact ⟨h, hrange, rfl⟩
  · rintro ⟨h, hrange, rfl⟩
    exact ⟨_, ⟨h, rfl⟩, _, ⟨hlow, rfl⟩, _, ⟨hhigh, rfl⟩, (), hrange, h, rfl⟩

theorem validate_validated (h : rule.validate value = .ok checked) :
    rule.validate checked = .ok checked := by
  obtain ⟨hvalue, hrange, rfl⟩ := validate_eq_ok.mp h
  refine validate_eq_ok.mpr ⟨hvalue.trimmed, ?_, hvalue.trimmed_trimmed.symm⟩
  rwa [hvalue.numeric_trimmed]

end ParameterRule

section
variable {α : Type} (name : α → String)

def sortedByName (items : List α) : List α :=
  items.insertionSort fun a b => keyLt (name b).toList (name a).toList = false

theorem sortedByName_perm (items : List α) : (sortedByName name items).Perm items :=
  List.perm_insertionSort _ _

theorem pairwise_sortedByName (items : List α) : (sortedByName name items).Pairwise fun a b =>
    keyLt (name b).toList (name a).toList = false := by
  let le : α → α → Prop := fun a b => keyLt (name b).toList (name a).toList = false
  have htotal : Std.Total le := ⟨fun a b => Json.keyLt_total (name a).toList (name b).toList⟩
  have htrans : IsTrans α le := ⟨fun _ _ _ hab hbc => Json.not_keyLt_trans hab hbc⟩
  exact pairwise_insertionSort le items

theorem sortedByName_sorted (items : List α) :
    sortedByName name (sortedByName name items) = sortedByName name items :=
  List.Pairwise.insertionSort_eq (pairwise_sortedByName name items)

theorem sortedByName_congr {items items' : List α} (hnodup : (items.map name).Nodup)
    (hperm : items.Perm items') : sortedByName name items = sortedByName name items' := by
  apply Perm.eq_of_pairwise ?_ (pairwise_sortedByName name items)
    (pairwise_sortedByName name items')
    ((sortedByName_perm name items).trans (hperm.trans (sortedByName_perm name items').symm))
  intro a b ha hb hab hba
  have ha' := (sortedByName_perm name items).subset ha
  have hb' := hperm.symm.subset ((sortedByName_perm name items').subset hb)
  apply inj_on_of_nodup_map hnodup ha' hb'
  by_contra hne
  rw [Json.keyLt_of_not hba fun h => hne (String.toList_inj.mp h)] at hab
  cases hab

end

namespace StrategyDefinition

def postInit (parameters : List ParameterRule) : Except RegistryError (List ParameterRule) := do
  raiseIf (32 < parameters.length) ⟨"Definition rules must be an immutable bounded tuple"⟩
  raiseIf (¬ (parameters.map (·.name)).Nodup) ⟨"Duplicate parameter name"⟩
  return sortedByName (·.name) parameters

variable {parameters built : List ParameterRule}

theorem postInit_eq_ok : postInit parameters = .ok built ↔
    parameters.length ≤ 32 ∧ (parameters.map (·.name)).Nodup ∧
      built = sortedByName (·.name) parameters := by
  simp only [postInit, raiseIf_bind_eq_ok, not_lt, not_not]
  exact and_congr_right' (and_congr_right' ⟨fun h => by cases h; rfl, fun h => by rw [h]; rfl⟩)

theorem postInit_built (h : postInit parameters = .ok built) :
    postInit built = .ok built := by
  obtain ⟨hlength, hnodup, rfl⟩ := postInit_eq_ok.mp h
  have hperm := sortedByName_perm (fun rule : ParameterRule => rule.name) parameters
  exact postInit_eq_ok.mpr ⟨by rwa [hperm.length_eq], ((hperm.map _).nodup_iff).mpr hnodup,
    (sortedByName_sorted _ _).symm⟩

end StrategyDefinition

/-- The rules of a strategy's parameters, in the order of their names. -/
structure StrategyDefinition where
  identity : StrategyIdentity
  parameters : List ParameterRule
  valid : StrategyDefinition.postInit parameters = .ok parameters

def StrategyDefinition.of (identity : StrategyIdentity) (parameters : List ParameterRule) :
    Except RegistryError StrategyDefinition :=
  match h : postInit parameters with
  | .ok built => .ok ⟨identity, built, postInit_built h⟩
  | .error e => .error e

namespace StrategyConfiguration

/-- The rule of the name; there is one, as the names are those of the rules. -/
def validateParameter (rules : List ParameterRule) (parameter : String × Json) :
    Except RegistryError (String × Json) :=
  match rules.find? (·.name = parameter.1) with
  | some rule => do return (parameter.1, ← rule.validate parameter.2)
  | none => .error ⟨"Unknown, duplicate or missing parameter"⟩

def postInit (definition : StrategyDefinition) (values : List (String × Json)) :
    Except RegistryError (List (String × Json)) := do
  let names := values.map Prod.fst
  let rules := definition.parameters.map (·.name)
  raiseIf (¬ names.Nodup ∨ ¬ ((∀ n ∈ names, n ∈ rules) ∧ ∀ n ∈ rules, n ∈ names))
    ⟨"Unknown, duplicate or missing parameter"⟩
  let normalized ← values.mapM (validateParameter definition.parameters)
  return sortedByName Prod.fst normalized

variable {definition : StrategyDefinition} {values built : List (String × Json)}

def normalizedParameter (parameter : String × Json) : String × Json :=
  (parameter.1, trimmed parameter.2)

theorem validateParameter_eq_ok {rules : List ParameterRule} {parameter checked : String × Json} :
    validateParameter rules parameter = .ok checked ↔
      (∃ rule, rules.find? (·.name = parameter.1) = some rule ∧
        ∃ value, rule.validate parameter.2 = .ok value) ∧ checked = normalizedParameter parameter := by
  unfold validateParameter
  constructor
  · intro h
    split at h
    · rename_i rule hrule
      obtain ⟨value, hvalue, h⟩ := bind_eq_ok.mp h
      cases h
      obtain ⟨-, -, rfl⟩ := ParameterRule.validate_eq_ok.mp hvalue
      exact ⟨⟨rule, hrule, _, hvalue⟩, rfl⟩
    · cases h
  · rintro ⟨⟨rule, hrule, value, hvalue⟩, rfl⟩
    obtain ⟨-, -, rfl⟩ := ParameterRule.validate_eq_ok.mp hvalue
    simp only [hrule, hvalue, ok_bind]
    rfl

/-- What a configuration makes of its values. -/
structure Normalized (definition : StrategyDefinition) (values built : List (String × Json)) :
    Prop where
  nodup : (values.map Prod.fst).Nodup
  names : ∀ name, name ∈ values.map Prod.fst ↔ name ∈ definition.parameters.map (·.name)
  accepted : ∀ parameter ∈ values, validateParameter definition.parameters parameter =
    .ok (normalizedParameter parameter)
  sorted : built = sortedByName Prod.fst (values.map normalizedParameter)

theorem postInit_eq_ok : postInit definition values = .ok built ↔
    Normalized definition values built := by
  have hmapM : ∀ normalized, values.mapM (validateParameter definition.parameters) = .ok normalized ↔
      (∀ parameter ∈ values, validateParameter definition.parameters parameter =
        .ok (normalizedParameter parameter)) ∧ normalized = values.map normalizedParameter :=
    fun _ => mapM_eq_ok_iff_map fun _ _ h => (validateParameter_eq_ok.mp h).2
  simp only [postInit, raiseIf_eq_ok, bind_eq_ok, not_or, not_not, hmapM]
  constructor
  · rintro ⟨-, ⟨hnodup, hsub, hsup⟩, normalized, ⟨haccepted, rfl⟩, h⟩
    cases h
    exact ⟨hnodup, fun name => ⟨hsub name, hsup name⟩, haccepted, rfl⟩
  · rintro ⟨hnodup, hnames, haccepted, rfl⟩
    exact ⟨(), ⟨hnodup, fun name => (hnames name).mp, fun name => (hnames name).mpr⟩, _,
      ⟨haccepted, rfl⟩, rfl⟩

namespace Normalized

theorem perm (h : Normalized definition values built) :
    built.Perm (values.map normalizedParameter) := by
  rw [h.sorted]
  exact sortedByName_perm _ _

theorem map_fst (h : Normalized definition values built) :
    (built.map Prod.fst).Perm (values.map Prod.fst) := by
  have hperm := h.perm.map Prod.fst
  rwa [map_map] at hperm

/-- Canonical values are accepted and stay as they are. -/
theorem self (h : Normalized definition values built) : Normalized definition built built := by
  have hself : ∀ parameter ∈ built, normalizedParameter parameter = parameter ∧
      validateParameter definition.parameters parameter = .ok parameter := by
    intro parameter hparameter
    obtain ⟨value, hvalue, rfl⟩ := mem_map.mp (h.perm.subset hparameter)
    obtain ⟨⟨rule, hrule, _, hchecked⟩, -⟩ := validateParameter_eq_ok.mp (h.accepted value hvalue)
    obtain ⟨hadmissible, -, rfl⟩ := ParameterRule.validate_eq_ok.mp hchecked
    have htwice : normalizedParameter (normalizedParameter value) = normalizedParameter value :=
      congrArg (Prod.mk value.1) hadmissible.trimmed_trimmed
    exact ⟨htwice, validateParameter_eq_ok.mpr
      ⟨⟨rule, hrule, _, ParameterRule.validate_validated hchecked⟩, htwice.symm⟩⟩
  constructor
  · exact h.map_fst.nodup_iff.mpr h.nodup
  · exact fun name => h.map_fst.mem_iff.trans (h.names name)
  · intro parameter hparameter
    rw [(hself parameter hparameter).1]
    exact (hself parameter hparameter).2
  · rw [map_congr_left fun parameter hparameter => (hself parameter hparameter).1, map_id']
    conv_rhs => rw [h.sorted, sortedByName_sorted, ← h.sorted]

end Normalized

end StrategyConfiguration

/-- The canonical values of a definition's parameters. -/
structure StrategyConfiguration where
  definition : StrategyDefinition
  values : List (String × Json)
  valid : StrategyConfiguration.postInit definition values = .ok values

namespace StrategyConfiguration
variable {definition definition' : StrategyDefinition} {values values' : List (String × Json)}
  {configuration configuration' : StrategyConfiguration}

def of (definition : StrategyDefinition) (values : List (String × Json)) :
    Except RegistryError StrategyConfiguration :=
  match h : postInit definition values with
  | .ok built => .ok ⟨definition, built, postInit_eq_ok.mpr (postInit_eq_ok.mp h).self⟩
  | .error e => .error e

def ruleEntry (rule : ParameterRule) : Json :=
  .dict [("name", .str rule.name), ("kind", .str rule.kind.value), ("minimum", rule.minimum),
    ("maximum", rule.maximum)]

def payload (configuration : StrategyConfiguration) : Json :=
  .dict [("schema_version", .int 1),
    ("strategy_id", .str configuration.definition.identity.strategyId),
    ("strategy_version", .str configuration.definition.identity.version),
    ("rules", .list (configuration.definition.parameters.map ruleEntry)),
    ("parameters", .dict configuration.values),
    ("policy", .dict [("paper_only", .bool true), ("live_master_lock", .str "OFF"),
      ("spot_only", .bool true), ("allow_short", .bool false), ("allow_leverage", .bool false)])]

def toJson (configuration : StrategyConfiguration) : String :=
  configuration.payload.dumps ++ "\n"

theorem of_eq_ok : of definition values = .ok configuration ↔
    configuration.definition = definition ∧ Normalized definition values configuration.values := by
  rw [← postInit_eq_ok]
  unfold of
  split
  · rename_i built hbuilt
    obtain ⟨held, built', valid⟩ := configuration
    simp only [hbuilt, Except.ok.injEq, mk.injEq]
    exact and_congr_left' eq_comm
  · rename_i e he
    rw [he]
    simp

theorem get?_ruleEntry (rule : ParameterRule) (key : String) : (ruleEntry rule).get? key =
    [("name", .str rule.name), ("kind", .str rule.kind.value), ("minimum", rule.minimum),
      ("maximum", rule.maximum)].lookup key := Json.get?_dict (by simp) key

theorem ruleEntry_injective : Function.Injective ruleEntry := by
  intro rule rule' h
  have hget := fun key => congrArg (Json.get? · key) h
  simp only [get?_ruleEntry] at hget
  have hname : rule.name = rule'.name := by simpa [lookup_cons] using hget "name"
  have hkind : rule.kind.value = rule'.kind.value := by simpa [lookup_cons] using hget "kind"
  have hminimum : rule.minimum = rule'.minimum := by simpa [lookup_cons] using hget "minimum"
  have hmaximum : rule.maximum = rule'.maximum := by simpa [lookup_cons] using hget "maximum"
  obtain ⟨⟨name, kind, minimum, maximum⟩, valid⟩ := rule
  obtain ⟨⟨name', kind', minimum', maximum'⟩, valid'⟩ := rule'
  cases kind <;> cases kind' <;> simp_all [ParameterKind.value]

theorem get?_payload (key : String) : configuration.payload.get? key =
    [("schema_version", .int 1),
      ("strategy_id", .str configuration.definition.identity.strategyId),
      ("strategy_version", .str configuration.definition.identity.version),
      ("rules", .list (configuration.definition.parameters.map ruleEntry)),
      ("parameters", .dict configuration.values),
      ("policy", .dict [("paper_only", .bool true), ("live_master_lock", .str "OFF"),
        ("spot_only", .bool true), ("allow_short", .bool false),
        ("allow_leverage", .bool false)])].lookup key := Json.get?_dict (by simp) key

theorem canonical_ruleEntry (rule : ParameterRule) : (ruleEntry rule).Canonical := by
  obtain ⟨-, hlow, hhigh, ⟨h0, hle, h1⟩, -⟩ := ParameterRule.Fields.postInit_eq_ok.mp rule.valid
  apply Json.canonical_dict
  simp only [forall_mem_cons, not_mem_nil, false_implies, implies_true, and_true]
  exact ⟨trivial, trivial, hlow.canonical h0 (hle.trans h1), hhigh.canonical (h0.trans hle) h1⟩

variable {parameter : String × Json}

theorem canonical_values (hmem : parameter ∈ configuration.values) :
    parameter.2.Canonical := by
  have h := postInit_eq_ok.mp configuration.valid
  obtain ⟨⟨rule, -, value, hvalue⟩, -⟩ := validateParameter_eq_ok.mp (h.accepted parameter hmem)
  obtain ⟨hadmissible, ⟨hlow, hhigh⟩, -⟩ := ParameterRule.validate_eq_ok.mp hvalue
  obtain ⟨-, -, -, ⟨h0, -, h1⟩, -⟩ := ParameterRule.Fields.postInit_eq_ok.mp rule.valid
  exact hadmissible.canonical (h0.trans hlow) (hhigh.trans h1)

theorem canonical_payload : configuration.payload.Canonical := by
  apply Json.canonical_dict
  simp only [forall_mem_cons, not_mem_nil, false_implies, implies_true, and_true]
  refine ⟨(by decide : (Nat.toDigits 10 1).length ≤ 4300), trivial, trivial, ?_, ?_, ?_⟩
  · apply Json.canonical_list
    intro entry hentry
    obtain ⟨rule, -, rfl⟩ := mem_map.mp hentry
    exact canonical_ruleEntry rule
  · exact Json.canonical_dict fun parameter hmem => canonical_values hmem
  · apply Json.canonical_dict
    simp only [forall_mem_cons, not_mem_nil, false_implies, implies_true, and_true]
    exact ⟨trivial, trivial, trivial, trivial, trivial⟩

/-- Entries of one text have one definition, and give every name the same value. -/
theorem eq_of_toJson (h : configuration.toJson = configuration'.toJson) :
    configuration.definition = configuration'.definition ∧
      ∀ name, configuration.values.lookup name = configuration'.values.lookup name := by
  have hpayload : configuration.payload = configuration'.payload := by
    apply Json.dumps_injective canonical_payload canonical_payload
    exact (String.append_left_inj _).mp h
  have hget := fun key => congrArg (Json.get? · key) hpayload
  simp only [get?_payload] at hget
  have hid : configuration.definition.identity.strategyId =
      configuration'.definition.identity.strategyId := by
    simpa [lookup_cons] using hget "strategy_id"
  have hversion : configuration.definition.identity.version =
      configuration'.definition.identity.version := by
    simpa [lookup_cons] using hget "strategy_version"
  have hrules : Json.list (configuration.definition.parameters.map ruleEntry) =
      Json.list (configuration'.definition.parameters.map ruleEntry) := by
    simpa [lookup_cons] using hget "rules"
  have hvalues : Json.dict configuration.values = Json.dict configuration'.values := by
    simpa [lookup_cons] using hget "parameters"
  have hnodup := fun c : StrategyConfiguration => (postInit_eq_ok.mp c.valid).nodup
  constructor
  · have hitems := congrArg JsonItems.toList (Json.array.inj hrules)
    rw [JsonItems.toList_ofList, JsonItems.toList_ofList] at hitems
    have hparameters := map_injective_iff.mpr ruleEntry_injective hitems
    obtain ⟨⟨⟨⟨strategyId, version⟩, hidentity⟩, parameters, hvalid⟩, built, hbuilt⟩ := configuration
    obtain ⟨⟨⟨⟨strategyId', version'⟩, hidentity'⟩, parameters', hvalid'⟩, built', hbuilt'⟩ :=
      configuration'
    cases hid
    cases hversion
    cases hparameters
    rfl
  · intro name
    rw [← Json.get?_dict (hnodup _), ← Json.get?_dict (hnodup _), hvalues]

/-- The same names, with equal numbers. -/
def SameParameters (values values' : List (String × Json)) : Prop :=
  (∀ name, name ∈ values.map Prod.fst ↔ name ∈ values'.map Prod.fst) ∧
    ∀ parameter ∈ values, ∀ parameter' ∈ values', parameter.1 = parameter'.1 →
      numeric parameter.2 = numeric parameter'.2

theorem normalizedParameter_eq_iff {rules : List ParameterRule}
    {parameter' checked checked' : String × Json}
    (h : validateParameter rules parameter = .ok checked)
    (h' : validateParameter rules parameter' = .ok checked') (hname : parameter.1 = parameter'.1) :
    trimmed parameter.2 = trimmed parameter'.2 ↔ numeric parameter.2 = numeric parameter'.2 := by
  obtain ⟨⟨rule, hrule, _, hchecked⟩, -⟩ := validateParameter_eq_ok.mp h
  obtain ⟨⟨rule', hrule', _, hchecked'⟩, -⟩ := validateParameter_eq_ok.mp h'
  rw [hname, hrule'] at hrule
  cases hrule
  exact (ParameterRule.validate_eq_ok.mp hchecked).1.trimmed_eq_iff
    (ParameterRule.validate_eq_ok.mp hchecked').1

theorem Normalized.lookup (h : Normalized definition values configuration.values)
    (hmem : parameter ∈ values) :
    configuration.values.lookup parameter.1 = some (trimmed parameter.2) := by
  have hbuilt := h.perm.symm.subset (mem_map_of_mem hmem)
  exact Option.mem_toList.mp
    ((mem_lookup_of_nodup (h.map_fst.nodup_iff.mpr h.nodup)).mpr hbuilt)

/-- What is given other texts of the same numbers, in any order, is the same. -/
theorem Normalized.subset (h : Normalized definition values configuration.values)
    (h' : Normalized definition values' configuration'.values) (hsame : SameParameters values values') :
    values.map normalizedParameter ⊆ values'.map normalizedParameter := by
  intro checked hchecked
  obtain ⟨parameter, hparameter, rfl⟩ := mem_map.mp hchecked
  obtain ⟨parameter', hparameter', hname⟩ :=
    mem_map.mp ((hsame.1 parameter.1).mp (mem_map_of_mem hparameter))
  have hvalue := (normalizedParameter_eq_iff (h.accepted _ hparameter) (h'.accepted _ hparameter')
    hname.symm).mpr (hsame.2 _ hparameter _ hparameter' hname.symm)
  exact mem_map.mpr ⟨parameter', hparameter', Prod.ext hname hvalue.symm⟩

/-- Entries have one text exactly when the definitions are the same and give the same names
equal numbers, and what is canonical stays as it is. -/
theorem registry_entry_eq_iff (h : of definition values = .ok configuration)
    (h' : of definition' values' = .ok configuration') :
    (configuration.toJson = configuration'.toJson ↔
      definition = definition' ∧ SameParameters values values') ∧
    of definition configuration.values = .ok configuration := by
  obtain ⟨rfl, hn⟩ := of_eq_ok.mp h
  obtain ⟨rfl, hn'⟩ := of_eq_ok.mp h'
  refine ⟨⟨?_, ?_⟩, of_eq_ok.mpr ⟨rfl, hn.self⟩⟩
  · intro htext
    obtain ⟨hdefinition, hlookup⟩ := eq_of_toJson htext
    rw [← hdefinition] at hn'
    refine ⟨hdefinition, fun name => (hn.names name).trans (hn'.names name).symm, ?_⟩
    intro parameter hparameter parameter' hparameter' hname
    have hvalue := hlookup parameter.1
    rw [hn.lookup hparameter, hname, hn'.lookup hparameter'] at hvalue
    exact (normalizedParameter_eq_iff (hn.accepted _ hparameter) (hn'.accepted _ hparameter')
      hname).mp (Option.some.inj hvalue)
  · rintro ⟨hdefinition, hsame⟩
    rw [← hdefinition] at hn'
    have hsame' : SameParameters values' values :=
      ⟨fun name => (hsame.1 name).symm, fun p hp p' hp' hname => (hsame.2 p' hp' p hp hname.symm).symm⟩
    have hnodup : ∀ {vs built}, Normalized configuration.definition vs built →
        (vs.map normalizedParameter).Nodup := fun hn =>
      List.Nodup.of_map Prod.fst (by rw [List.map_map]; exact hn.nodup)
    have hperm := (List.perm_ext_iff_of_nodup (hnodup hn) (hnodup hn')).mpr fun checked =>
      ⟨fun hc => hn.subset hn' hsame hc, fun hc => hn'.subset hn hsame' hc⟩
    have hvalues : configuration.values = configuration'.values := by
      rw [hn.sorted, hn'.sorted]
      exact sortedByName_congr _ (by rw [List.map_map]; exact hn.nodup) hperm
    obtain ⟨held, built, hbuilt⟩ := configuration
    obtain ⟨held', built', hbuilt'⟩ := configuration'
    cases hdefinition
    cases hvalues
    rfl

theorem numeric_sample : numeric (.str "1.5") = 1.5 ∧ numeric (.str "1.50") = 1.5 ∧
    numeric (.str "0") = 0 ∧ numeric (.str "10") = 10 := by
  have h : ofText "1.5" = ⟨false, 15, -1⟩ ∧ ofText "1.50" = ⟨false, 150, -2⟩ ∧
      ofText "0" = ⟨false, 0, 0⟩ ∧ ofText "10" = ⟨false, 10, 0⟩ := by decide
  obtain ⟨h1, h2, h3, h4⟩ := h
  simp only [numeric, h1, h2, h3, h4, toRat, int]
  norm_num

def sampleFactor : ParameterRule where
  toFields := ⟨"factor", .decimal, .str "0", .str "10"⟩
  valid := by
    obtain ⟨-, -, h0, h1⟩ := numeric_sample
    refine ParameterRule.Fields.postInit_eq_ok.mpr
      ⟨by decide, .decimal (by decide), .decimal (by decide), ?_, rfl⟩
    rw [h0, h1]
    norm_num

def sampleDefinition : StrategyDefinition := ⟨trendPullbackIdentity, [sampleFactor], rfl⟩

theorem normalized_sample {text : String} (htext : Decimal.unsignedText 40 40 text)
    (hnumber : numeric (.str text) = 1.5)
    (htrimmed : trimmed (.str text) = .str "1.5") :
    Normalized sampleDefinition [("factor", .str text)] [("factor", .str "1.5")] := by
  obtain ⟨-, -, h0, h1⟩ := numeric_sample
  refine ⟨by simp, fun name => Iff.rfl, ?_, by rw [← htrimmed]; rfl⟩
  rw [forall_mem_singleton, validateParameter_eq_ok]
  refine ⟨⟨sampleFactor, rfl, _, ParameterRule.validate_eq_ok.mpr ⟨.decimal htext, ?_, rfl⟩⟩, rfl⟩
  change numeric (.str "0") ≤ _ ∧ _ ≤ numeric (.str "10")
  rw [h0, h1, hnumber]
  norm_num

def sampleConfiguration : StrategyConfiguration where
  definition := sampleDefinition
  values := [("factor", .str "1.5")]
  valid := postInit_eq_ok.mpr (normalized_sample (by decide) numeric_sample.1 rfl)

theorem registry_entry_eq_sample :
    (sampleConfiguration.toJson = sampleConfiguration.toJson ↔ sampleDefinition = sampleDefinition ∧
      SameParameters [("factor", .str "1.50")] [("factor", .str "1.5")]) ∧
      of sampleDefinition sampleConfiguration.values = .ok sampleConfiguration :=
  registry_entry_eq_iff
    (of_eq_ok.mpr ⟨rfl, normalized_sample (by decide) numeric_sample.2.1 rfl⟩)
    (of_eq_ok.mpr ⟨rfl, normalized_sample (by decide) numeric_sample.1 rfl⟩)

end StrategyConfiguration

end StrategyRegistry
end TradingLab
