import TradingLab.Crisis.Replay

/-!
# The ablations of the entry filters

An ablation evaluates a candidate with one of its entry filters removed, and
records what the removed filter would have said. It has evaluators of its own;
with a position open it asks the frozen ones. The level of a stop is written with
all its digits here, where the frozen evaluators keep forty of its fraction.
-/

namespace TradingLab

open Decimal Evaluation

/-- What an ablation raises: its own error, that of a frozen evaluator, or that of a contract. -/
inductive HSLAblationError where
  | ablation (message : String)
  | evaluator (error : EvaluatorError)
  | contract (error : StrategyContractError)
deriving Repr, DecidableEq

namespace Ablation

/-- The entry filters that can be removed. -/
inductive EntryChange where
  | removeConfirmation
  | removeRegime
  | removeVolatilityExtension
deriving Repr, DecidableEq

def EntryChange.value : EntryChange → String
  | removeConfirmation => "REMOVE_15M_BULLISH_CONFIRMATION"
  | removeRegime => "REMOVE_TREND_UP_ENTRY_GATE_ONLY"
  | removeVolatilityExtension => "REMOVE_MAXIMUM_EXTENSION_ATR_ENTRY_GATE_ONLY"

structure TargetRecord where
  targetFilter : Option EntryChange
  targetFilterPassed : Bool
  targetFilterBlocked : Bool
deriving Repr, DecidableEq

/-- A decision with the record of the removed filter. -/
abbrev Outcome := Except HSLAblationError (StrategyDecision × TargetRecord)

def _plain (d : Decimal) : String := Crisis._plain d

def _setup (reference invalidation rewardRisk : Decimal) :
    Except HSLAblationError (Option LongSetup) :=
  let risk := sub decimalPrecision reference invalidation
  let target := add decimalPrecision reference (mul decimalPrecision risk rewardRisk)
  if invalidation ≤ 0 ∨ risk ≤ 0 then return none
  else do
    let setup ← (LongSetup.build {
      referencePrice := _plain reference
      invalidationPrice := _plain invalidation
      targetPrice := _plain target }).mapError .contract
    return some setup

def _targetRecord (change : Option EntryChange) (passed blocked : Bool) :
    Except HSLAblationError TargetRecord := do
  raiseIf (passed = true ∧ blocked = true)
    (.ablation "targeted filter cannot both pass and block")
  return ⟨change, passed, blocked⟩

/-- What was found out about the removed filter so far. -/
structure Target where
  change : EntryChange
  passed : Bool := false
  blocked : Bool := false
deriving Repr, DecidableEq

/-- The removed filter is asked, and does not decide. -/
def Target.asked (t : Target) (passed : Bool) : Target := { t with passed, blocked := !passed }

def Target.bare (t : Target) : Target := ⟨t.change, false, false⟩

def Target.record (t : Target) : Except HSLAblationError TargetRecord :=
  _targetRecord t.change t.passed t.blocked

def _decide (f : StrategyDecision.Fields) (target : Target) : Outcome := do
  let decision ← (StrategyDecision.build f).mapError .contract
  let record ← target.record
  return (decision, record)

def _noTrade (context : StrategyContext) (reason : DecisionReason) (target : Target) : Outcome :=
  _decide { context, action := .noTrade, reason } target

def level (low volatility : Decimal) : Decimal :=
  sub decimalPrecision low (mul decimalPrecision volatility stopAtrFraction)

/-- The end of both evaluators. -/
def _enter (context : StrategyContext) (reason : DecisionReason) (target : Target)
    (close low volatility : Decimal) : Outcome := do
  let invalidation := ofText (_plain (level low volatility))
  match ← _setup close invalidation rewardRisk with
  | none => _noTrade context .setupAbsent target
  | some setup => _decide { context, action := .enterLong, reason, setup := some setup } target

def _frozen (change : Option EntryChange) (evaluate : Except EvaluatorError StrategyDecision) :
    Outcome := do
  let decision ← evaluate.mapError .evaluator
  let record ← _targetRecord change false false
  return (decision, record)

def _feature (message : String) (result : Except FeatureError FeatureResult) :
    Except HSLAblationError FeatureResult := result.mapError fun _ => .ablation message

def _regime (message : String) (context : StrategyContext) : Except HSLAblationError RegimeResult :=
  (classifyRegime context).mapError fun _ => .ablation message

/-- The gate of the regime, unless it is the removed filter. -/
def _gateRegime (context : StrategyContext) (regime : MarketRegime) (target : Target)
    (next : Target → Outcome) : Outcome :=
  if target.change = .removeRegime then next (target.asked (regime = .trendUp))
  else if regime = .unknown then _noTrade context .regimeUnknown target.bare
  else if regime ≠ .trendUp then _noTrade context .regimeBlocked target.bare
  else next target

def _trendLevels (context : StrategyContext) (close : Decimal) (target : Target) : Outcome := do
  let failed := "HSL-003 trend level evaluation failed"
  let volatility ← _feature failed
    (Features.atr context.snapshot.primary atrPeriod context.decisionTimeMs)
  let recentLow ← _feature failed
    (Features.rollingLow context.snapshot.primary Trend.pullbackLookback context.decisionTimeMs)
  if h : volatility.available ∧ recentLow.available then
    _enter context .trendPullbackEntry target close (recentLow.number h.2) (volatility.number h.1)
  else _noTrade context .insufficientHistory target

def _trendConfirmation (context : StrategyContext) (close : Decimal) (target : Target) : Outcome :=
  if target.change = .removeConfirmation then
    _trendLevels context close (target.asked (_confirmed context.snapshot.context))
  else if ¬ _confirmed context.snapshot.context then
    _noTrade context .confirmationFailed target.bare
  else _trendLevels context close target

def _trendSearch (context : StrategyContext) (regime : MarketRegime) (average : Decimal)
    (target : Target) : Outcome :=
  _gateRegime context regime target fun target =>
    let close := ofText context.snapshot.latestPrimary.close
    if average < ofText context.snapshot.latestPrimary.low ∨ close ≤ average then
      _noTrade context .setupAbsent target
    else _trendConfirmation context close target

def _evaluateTrend (context : StrategyContext) (inPosition : Bool)
    (activeSetup : Option LongSetup) (change : Option EntryChange) : Outcome :=
  match inPosition, change with
  | false, some change => do
      let failed := "HSL-003 trend feature evaluation failed"
      let regime ← _regime failed context
      let average ← _feature failed
        (Features.sma context.snapshot.primary Trend.primarySmaPeriod context.decisionTimeMs)
      if h : regime.reason ≠ .insufficientHistory ∧ average.available then
        _trendSearch context regime.regime (average.number h.2) ⟨change, false, false⟩
      else _noTrade context .insufficientHistory ⟨change, false, false⟩
  | _, _ => _frozen change (evaluateTrendPullback context inPosition activeSetup)

def _breakoutConfirmation (context : StrategyContext) (close low volatility : Decimal)
    (target : Target) : Outcome :=
  if target.change = .removeConfirmation then
    _enter context .breakoutEntry (target.asked (_confirmed context.snapshot.context))
      close low volatility
  else if ¬ _confirmed context.snapshot.context then
    _noTrade context .confirmationFailed target
  else _enter context .breakoutEntry target close low volatility

/-- The close lies near enough to the boundary. -/
def extensionOk (close boundary volatility : Decimal) : Bool :=
  !(Breakout._extensionAtr close boundary volatility).all (Breakout.maximumExtensionAtr < ·)

def _breakoutExtension (context : StrategyContext) (boundary volatility close low : Decimal)
    (target : Target) : Outcome :=
  let ok := extensionOk close boundary volatility
  if target.change = .removeVolatilityExtension then
    _breakoutConfirmation context close low volatility (target.asked ok)
  else if ¬ ok then _noTrade context .setupAbsent target.bare
  else _breakoutConfirmation context close low volatility target

def _breakoutSearch (context : StrategyContext) (regime : MarketRegime)
    (boundary volatility : Decimal) (target : Target) : Outcome :=
  _gateRegime context regime target fun target =>
    let close := ofText context.snapshot.latestPrimary.close
    let high := ofText context.snapshot.latestPrimary.high
    let low := ofText context.snapshot.latestPrimary.low
    if close ≤ boundary then _noTrade context .setupAbsent target
    else if Breakout._closeLocation high low close < Breakout.minimumCloseLocation then
      _noTrade context .setupAbsent target
    else _breakoutExtension context boundary volatility close low target

def _evaluateBreakout (context : StrategyContext) (inPosition : Bool)
    (activeSetup : Option LongSetup) (change : Option EntryChange) : Outcome :=
  match inPosition, change with
  | false, some change => do
      let failed := "HSL-003 breakout feature evaluation failed"
      let earlier := context.snapshot.primary.dropLast
      let regime ← _regime failed context
      let boundary ← _feature failed
        (Features.rollingHigh earlier Breakout.breakoutLookback context.decisionTimeMs)
      let volatility ← _feature failed
        (Features.atr earlier atrPeriod context.decisionTimeMs)
      if h : regime.reason ≠ .insufficientHistory ∧ boundary.available ∧ volatility.available then
        _breakoutSearch context regime.regime (boundary.number h.2.1) (volatility.number h.2.2)
          ⟨change, false, false⟩
      else _noTrade context .insufficientHistory ⟨change, false, false⟩
  | _, _ => _frozen change (evaluateBreakout context inPosition activeSetup)

inductive StrategyId where
  | trendPullback
  | rangeBreakout
deriving Repr, DecidableEq

def StrategyId.identity : StrategyId → StrategyIdentity
  | trendPullback => trendPullbackIdentity
  | rangeBreakout => breakoutIdentity

/-- The frozen evaluator of a candidate. -/
def StrategyId.evaluate : StrategyId → StrategyContext → Bool → Option LongSetup →
    Except EvaluatorError StrategyDecision
  | trendPullback => evaluateTrendPullback
  | rangeBreakout => evaluateBreakout

/-- The filters an experiment may remove, one at a time. -/
def StrategyId.registered : StrategyId → List EntryChange
  | trendPullback => [.removeConfirmation, .removeRegime]
  | rangeBreakout => [.removeConfirmation, .removeRegime, .removeVolatilityExtension]

structure Experiment where
  strategyId : StrategyId
  entryChanges : List EntryChange
deriving Repr, DecidableEq

def _evaluateExperiment (experiment : Experiment) (context : StrategyContext) (inPosition : Bool)
    (activeSetup : Option LongSetup) : Outcome :=
  let change := experiment.entryChanges.head?
  match experiment.strategyId with
  | .trendPullback => _evaluateTrend context inPosition activeSetup change
  | .rangeBreakout => _evaluateBreakout context inPosition activeSetup change

end Ablation

end TradingLab
