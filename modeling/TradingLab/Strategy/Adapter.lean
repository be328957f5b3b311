import TradingLab.Risk.ManagedAdapter
import TradingLab.Strategy.Evaluators

/-!
# The research signal adapter

The adapter follows one candidate on one market. It turns a decision into a paper
intent of a fixed quantity, hands it to the fill engine, and remembers the setup
of the open position. What the engine refuses, it refuses.
-/

namespace TradingLab

open Method

def fixedResearchQuantity : String := "0.001"

structure SignalAdapterError where
  message : String
deriving Repr, DecidableEq

namespace AdapterStep

structure Fields where
  decision : StrategyDecision
  intent : PaperIntent
  fills : List FillReference
deriving DecidableEq

def _expected : StrategyAction → IntentAction
  | .noTrade => .hold
  | .enterLong => .enterLong
  | .exitLong => .exitLong

def Fields.postInit (s : Fields) : Except SignalAdapterError Unit := do
  raiseIf (2 < s.fills.length ∨ s.intent.decisionTimeMs ≠ s.decision.decisionTimeMs)
    ⟨"Adapter step identity is invalid"⟩
  raiseIf (s.intent.action ≠ _expected s.decision.action)
    ⟨"Decision and paper intent actions differ"⟩
  raiseIf (∃ r ∈ s.fills, r.symbol ≠ s.decision.symbol ∨
      r.decisionTimeMs ≠ s.decision.decisionTimeMs)
    ⟨"Adapter fill identity is invalid"⟩

end AdapterStep

structure AdapterStep extends AdapterStep.Fields where
  valid : toFields.postInit = .ok ()
deriving DecidableEq

def AdapterStep.build (f : AdapterStep.Fields) : Except SignalAdapterError AdapterStep :=
  construct f.postInit fun h => ⟨f, h⟩

structure ResearchSignalAdapter where
  identity : StrategyIdentity
  symbol : Symbol
  _fillEngine : PaperFillEngine
  _activeSetup : Option LongSetup
  _lastSequence : Option ℤ
  _lastDecisionTimeMs : Option ℤ
deriving DecidableEq

namespace ResearchSignalAdapter

def init (identity : StrategyIdentity) (symbol : Symbol) :
    Except SignalAdapterError ResearchSignalAdapter := do
  raiseIf (identity ∉ RiskAdapter.supportedIdentities)
    ⟨"Adapter strategy identity is not supported"⟩
  return ⟨identity, symbol, .init symbol, none, none, none⟩

/-- The errors of a paper intent pass through unchanged. -/
inductive Error where
  | adapter (e : SignalAdapterError)
  | fill (e : FillModelError)
deriving Repr, DecidableEq

def hasPosition (s : ResearchSignalAdapter) : Prop := s._activeSetup ≠ none

instance (s : ResearchSignalAdapter) : Decidable s.hasPosition := by
  unfold hasPosition
  infer_instance

def activeSetup (s : ResearchSignalAdapter) : Option LongSetup := s._activeSetup

def _validate (s : ResearchSignalAdapter) (event : DecisionEvent) (decision : StrategyDecision) :
    Except SignalAdapterError Unit := do
  raiseIf (decision.context.identity ≠ s.identity ∨ decision.symbol ≠ s.symbol ∨
      event.snapshot.symbol ≠ s.symbol ∨ decision.decisionTimeMs ≠ event.decisionTimeMs ∨
      decision.context.snapshot ≠ event.snapshot)
    ⟨"Event, decision or fill identity is inconsistent"⟩
  raiseIf (¬ (decision.context.Reconstructs ∧ decision.toFields.postInit = .ok ()))
    ⟨"Strategy decision failed reconstruction"⟩
  let expectedSequence := s._lastSequence.elim 0 (· + 1)
  raiseIf (event.sequence ≠ expectedSequence ∨
      s._lastDecisionTimeMs.any fun last => event.decisionTimeMs ≤ last)
    ⟨"Duplicate or out-of-order decision"⟩

def _paper (f : PaperIntent.Fields) : Except Error PaperIntent :=
  (PaperIntent.build f).mapError .fill

def _intent (s : ResearchSignalAdapter) (decision : StrategyDecision) : Except Error PaperIntent :=
  if s.hasPosition then
    if decision.action = .exitLong then
      _paper { action := .exitLong, decisionTimeMs := decision.decisionTimeMs }
    else if decision.action = .noTrade ∧ decision.reason = .holdPosition then
      _paper { action := .hold, decisionTimeMs := decision.decisionTimeMs }
    else .error (.adapter ⟨"Open strategy state requires HOLD or EXIT_LONG"⟩)
  else if decision.action = .enterLong then
    _paper {
      action := .enterLong
      decisionTimeMs := decision.decisionTimeMs
      quantity := fixedResearchQuantity
      stopPrice := decision.setup.map fun setup => setup.invalidationPrice
      targetPrice := decision.setup.map fun setup => setup.targetPrice }
  else if decision.action = .noTrade ∧ decision.reason ≠ .holdPosition then
    _paper { action := .hold, decisionTimeMs := decision.decisionTimeMs }
  else .error (.adapter ⟨"Flat strategy state cannot hold or exit a position"⟩)

/-- The arguments of `process`. -/
structure Call where
  event : DecisionEvent
  decision : StrategyDecision
  fillCandle : Candle

/-- What is remembered of the position after the engine has moved. -/
def _remember (step : AdapterStep) (s : ResearchSignalAdapter) : ResearchSignalAdapter :=
  if step.intent.action = .enterLong ∧ s._fillEngine.hasPosition then
    { s with _activeSetup := step.decision.setup }
  else if ¬ s._fillEngine.hasPosition then { s with _activeSetup := none }
  else s

def rejected : Error := .adapter ⟨"P2 rejected the strategy paper intent"⟩

/-- The engine call of `process`, with its error replaced. -/
def _engine (c : PaperFillEngine.Call) : Method ResearchSignalAdapter Error (List FillReference) :=
  zoom _fillEngine (fun engine s => { s with _fillEngine := engine }) (fun _ => rejected)
    (PaperFillEngine.process c)

/-- The part of `process` after the step was built. -/
def _settle (c : Call) (step : AdapterStep) : Method ResearchSignalAdapter Error AdapterStep := do
  modify (_remember step)
  let s ← read id
  check (raiseIf (¬ (s.hasPosition ↔ s._fillEngine.hasPosition))
    (.adapter ⟨"Strategy and fill-engine position states diverged"⟩))
  modify fun s => { s with
    _lastSequence := some c.event.sequence
    _lastDecisionTimeMs := some c.event.decisionTimeMs }
  return step

def process (c : Call) : Method ResearchSignalAdapter Error AdapterStep := do
  let s ← read id
  check ((s._validate c.event c.decision).mapError .adapter)
  let intent ← check (s._intent c.decision)
  let fills ← _engine ⟨c.event, intent, c.fillCandle⟩
  let step ← check ((AdapterStep.build ⟨c.decision, intent, fills⟩).mapError .adapter)
  _settle c step

end ResearchSignalAdapter

end TradingLab
