import TradingLab.Factory.ScreenAccounts
import Mathlib.Data.List.Sort

/-!
# The screening of a rule

Every hard gate has a minimum. The metrics of the floating-point account are held
against the minima with a guard band. Without a metric inside of the band, and with
one below it, the rule fails without more; otherwise it is recomputed exactly.
-/

namespace TradingLab

open Decimal Json

namespace Factory.Screening

inductive Gate where
  | minimumSignals
  | minimumFills
  | minimumBaseNet
  | minimumStressNet
  | minimumPassingFolds
deriving Repr, DecidableEq

def Gate.text : Gate → String
  | minimumSignals => "minimum_signals"
  | minimumFills => "minimum_fills"
  | minimumBaseNet => "minimum_base_net"
  | minimumStressNet => "minimum_stress_net"
  | minimumPassingFolds => "minimum_passing_folds"

def Gate.ofText? (s : String) : Option Gate :=
  [minimumSignals, minimumFills, minimumBaseNet, minimumStressNet, minimumPassingFolds].find?
    fun g => g.text == s

theorem Gate.text_injective {g h : Gate} (heq : g.text = h.text) : g = h := by
  revert heq
  cases g <;> cases h <;> decide

structure EvidenceBinding where
  partition : String
  qualitySha256 : String
  datasetId : String
  /-- The digest of the quality manifest, when its path is safe and it is a file. -/
  manifest : Except ScreenError (Option String)

def EvidenceBinding.validate (e : EvidenceBinding) : Except ScreenError Unit := do
  raiseIf (e.partition ≠ "DEVELOPMENT" ∨ e.datasetId = "" ∨ e.qualitySha256.length ≠ 64)
    (.mcf "evidence partition or identity invalid")
  let digest ← e.manifest
  raiseIf (digest ≠ some e.qualitySha256) (.mcf "unbound quality manifest")

/-- Minima under their keys; a dictionary has each key once. -/
structure Thresholds where
  items : List (String × Decimal)
  nodup : (items.map Prod.fst).Nodup

structure Request where
  series : Series
  policy : CostPolicy
  costPolicyRef : String
  thresholds : Thresholds
  folds : List (ℕ × ℕ)
  guardBand : String
  evidence : Option EvidenceBinding
  expectedQualitySha256 : Option String
  expectedDatasetId : Option String
  fixtureId : Option String

def Request.dataId (x : Request) : Except ScreenError String :=
  match x.evidence, x.fixtureId with
  | some evidence, none => do
      raiseIf (some evidence.qualitySha256 ≠ x.expectedQualitySha256 ∨
          some evidence.datasetId ≠ x.expectedDatasetId)
        (.mcf "evidence not bound to frozen batch")
      evidence.validate
      return evidence.datasetId
  | none, some fixture => do
      raiseIf (¬ "SYNTHETIC-".toList.isPrefixOf fixture.toList)
        (.mcf "screening requires bound Development evidence or synthetic fixture")
      return fixture
  | _, _ => .error (.mcf "screening requires bound Development evidence or synthetic fixture")

/-- The folds have three bars at least, and follow one another over the whole series. -/
def CanonicalFolds (n : ℕ) (folds : List (ℕ × ℕ)) : Prop :=
  folds.head?.map Prod.fst = some 0 ∧ folds.getLast?.map Prod.snd = some n ∧
    (∀ fold ∈ folds, fold.1 + 3 ≤ fold.2) ∧ folds.IsChain fun a b => b.1 = a.2

instance (n : ℕ) (folds : List (ℕ × ℕ)) : Decidable (CanonicalFolds n folds) := by
  unfold CanonicalFolds
  infer_instance

def gateOf (item : String × Decimal) : Except ScreenError (Gate × Decimal) :=
  match Gate.ofText? item.1 with
  | some gate => .ok (gate, item.2)
  | none => .error (.mcf "unknown hard gate")

inductive Metric where
  | count (n : ℕ)
  | net (x : Binary64)

structure Metrics where
  signals : ℕ
  fills : ℕ
  baseNet : Binary64
  stressNet : Binary64
  foldNets : List Binary64

namespace Metrics

variable (m : Metrics)

def passingFolds : ℕ := m.foldNets.countP fun x => zero.le x

def metric : Gate → Metric
  | .minimumSignals => .count m.signals
  | .minimumFills => .count m.fills
  | .minimumBaseNet => .net m.baseNet
  | .minimumStressNet => .net m.stressNet
  | .minimumPassingFolds => .count m.passingFolds

end Metrics

/-- An integer is rounded before a floating-point number is taken from it. -/
def delta (metric : Metric) (minimum : Binary64) : Except ScreenError Binary64 :=
  match metric with
  | .count n =>
      if Binary64.Overflows n then .error .overflow else .ok ((Binary64.ofNat n).sub minimum)
  | .net x => .ok (x.sub minimum)

/-- An integer is compared with a floating-point number exactly. -/
def below (metric : Metric) (minimum : Binary64) : Bool :=
  match metric with
  | .count n => decide (Binary64.Below n minimum)
  | .net x => x.lt minimum

inductive Zone where
  | gray
  | failing
  | passing
deriving Repr, DecidableEq

def zoneOf (guard delta : Binary64) : Zone :=
  if delta.abs.le guard then .gray else if delta.lt zero then .failing else .passing

def Metrics.zone (m : Metrics) (guard : Binary64) (gate : Gate × Decimal) :
    Except ScreenError (Gate × Zone) := do
  let d ← delta (m.metric gate.1) (.ofExact gate.2)
  return (gate.1, zoneOf guard d)

structure Exact where
  base : ExactResult
  stress : ExactResult
  foldNets : List Decimal

def exact (x : Request) : Except ScreenError Exact := do
  let base ← account x.series x.policy false
  let stress ← account x.series x.policy true
  let folds ← x.folds.mapM fun fold => account (x.series.slice fold) x.policy false
  return ⟨base, stress, folds.map fun f => f.net⟩

/-- Whether the accounts agree, with the discrepancy. -/
def compare (net : Binary64) (exact margin : Decimal) : Except ScreenError (Bool × Binary64) :=
  match Numeral.ofString net.repr with
  | none => .error .value
  | some screened =>
      match Numeral.sub defaultPrecision screened (.finite exact) with
      | .ok (.finite d) =>
          let error := absolute defaultPrecision d
          .ok (decide (error ≤ margin), .ofExact error)
      | .ok (.infinite _) => .ok (false, .infinite false)
      | _ => .error .value

/-- The metrics of the exact accounts as they are compared. -/
def Exact.metrics (e : Exact) (signals : ℕ) : Metrics where
  signals := signals
  fills := e.base.fills
  baseNet := .ofExact e.base.net
  stressNet := .ofExact e.stress.net
  foldNets := e.foldNets.map .ofExact

def greatest : List Binary64 → Binary64
  | [] => zero
  | x :: xs => xs.foldl Binary64.larger x

/-- The recomputation has to agree with the screening; its discrepancy is reported. -/
def agreed (m : Metrics) (e : Exact) (margin : Decimal) (guard : Binary64) :
    Except ScreenError Binary64 := do
  let a ← compare m.baseNet e.base.net margin
  let b ← compare m.stressNet e.stress.net margin
  let foldError := greatest (m.foldNets.zipWith (fun x y => (x.sub (.ofExact y)).abs) e.foldNets)
  raiseIf (a.1 = false ∨ b.1 = false ∨ guard.lt foldError = true)
    (.mcf "screening/exact discrepancy exceeds guard band")
  return greatest [a.2, b.2, foldError]

structure ScreenResult where
  resultState : String
  failureReasons : List String
  signals : ℕ
  baseEconomics : FloatResult
  stressEconomics : FloatResult
  foldNet : List Binary64
  exactRecomputeState : String
  maximumNumericalDiscrepancy : String
  datasetId : String

def stateOf (failures : List Gate) : String :=
  if failures.isEmpty then "DEVELOPMENT_GATE_PASS" else "DEVELOPMENT_FAIL"

/-- `sorted` of the failed keys. -/
def reasonsOf (failures : List Gate) : List String :=
  (failures.map Gate.text).insertionSort fun a b => a ≤ b

def failing (m : Metrics) (gates : List (Gate × Decimal)) : List Gate :=
  (gates.filter fun gate => below (m.metric gate.1) (.ofExact gate.2)).map Prod.fst

/-- The failed gates, the state of the recomputation and the discrepancy. -/
def judge (x : Request) (m : Metrics) (gates : List (Gate × Decimal)) (margin : Decimal) :
    Except ScreenError (List Gate × String × String) := do
  let guard := Binary64.ofExact margin
  let zones ← gates.mapM (m.zone guard)
  let failures := (zones.filter fun z => z.2 = .failing).map Prod.fst
  if (∃ z ∈ zones, z.2 = .gray) ∨ failures = [] then
    let e ← exact x
    let discrepancy ← agreed m e margin guard
    return (failing (e.metrics m.signals) gates, "EXACT_RECOMPUTED", discrepancy.repr)
  else return (failures, "NOT_REQUIRED", "0")

def screen (x : Request) : Except ScreenError ScreenResult := do
  raiseIf (x.policy.ref ≠ x.costPolicyRef) (.mcf "unbound cost policy")
  let datasetId ← x.dataId
  let n := x.series.signals.length
  raiseIf (x.series.opens.length ≠ n ∨ x.series.closes.length ≠ n ∨ n < 3 ∨
    ¬ CanonicalFolds n x.folds) (.mcf "noncanonical fold/series")
  let gates ← x.thresholds.items.mapM gateOf
  let base ← floatAccount x.series x.policy false
  let stress ← floatAccount x.series x.policy true
  let temporal ← x.folds.mapM fun fold => floatAccount (x.series.slice fold) x.policy false
  let m : Metrics := {
    signals := x.series.signals.dropLast.countP id
    fills := base.fills
    baseNet := base.net
    stressNet := stress.net
    foldNets := temporal.map fun f => f.net }
  let margin ← number x.guardBand
  let (failures, exactState, discrepancy) ← judge x m gates margin
  return {
    resultState := stateOf failures
    failureReasons := reasonsOf failures
    signals := m.signals
    baseEconomics := base
    stressEconomics := stress
    foldNet := m.foldNets
    exactRecomputeState := exactState
    maximumNumericalDiscrepancy := discrepancy
    datasetId }

end Factory.Screening

end TradingLab
