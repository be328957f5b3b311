import TradingLab.Backtest.FillEngine
import TradingLab.Risk.EntryApproval

/-!
# The risk-managed paper adapter

The only way into the paper fill engine is a complete authorization. The adapter
remembers the approved quantity of the open position and refuses every request
that does not fit it. The step it returns is checked after the engine has moved,
so the check must never fail.
-/

namespace TradingLab

open Method

namespace RiskAdapter

def supportedIdentities : List StrategyIdentity := [trendPullbackIdentity, breakoutIdentity]

end RiskAdapter

inductive RiskAdapterOutcome where
  | entryApproved
  | entryBlocked
  | noAction
  | exitApproved
deriving Repr, DecidableEq

def RiskAdapterOutcome.value : RiskAdapterOutcome → String
  | entryApproved => "ENTRY_APPROVED"
  | entryBlocked => "ENTRY_BLOCKED"
  | noAction => "NO_ACTION"
  | exitApproved => "EXIT_APPROVED"

namespace RiskAdapterStep

structure Fields where
  authorization : RiskAuthorization
  outcome : RiskAdapterOutcome
  intent : PaperIntent
  fills : List FillReference
deriving DecidableEq

/-- The outcome and the intent that an action and its disposition lead to. -/
def _expected : StrategyAction → RiskDisposition → Option (RiskAdapterOutcome × IntentAction)
  | .enterLong, .approvePaper => some (.entryApproved, .enterLong)
  | .enterLong, .reject => some (.entryBlocked, .hold)
  | .noTrade, .noAction => some (.noAction, .hold)
  | .exitLong, .approvePaper => some (.exitApproved, .exitLong)
  | _, _ => none

def Fields._entryFill (s : Fields) : Except RiskAdapterError Unit := do
  let decision := s.authorization.decision
  raiseIf (s.intent.quantity ≠ decision.approvedQuantity)
    ⟨"P2 entry quantity differs from P4 approval"⟩
  raiseIf (s.fills.head?.all fun fill =>
      fill.action ≠ .enterLong ∨ some fill.quantity ≠ decision.approvedQuantity)
    ⟨"P2 entry fill differs from P4 approval"⟩

def Fields.postInit (s : Fields) : Except RiskAdapterError Unit := do
  let decision := s.authorization.decision
  raiseIf (2 < s.fills.length) ⟨"Risk adapter step identity is invalid"⟩
  raiseIf (_expected decision.request.strategyDecision.action decision.disposition ≠
      some (s.outcome, s.intent.action))
    ⟨"Authorization and Paper intent actions differ"⟩
  raiseIf (s.intent.decisionTimeMs ≠ decision.request.portfolio.decisionTimeMs)
    ⟨"Authorization and Paper intent times differ"⟩
  if s.outcome = .entryApproved then s._entryFill
  else
    raiseIf (s.outcome = .entryBlocked ∧ s.fills ≠ []) ⟨"Rejected entry produced a Paper fill"⟩

end RiskAdapterStep

structure RiskAdapterStep extends RiskAdapterStep.Fields where
  valid : toFields.postInit = .ok ()
deriving DecidableEq

def RiskAdapterStep.build (f : RiskAdapterStep.Fields) : Except RiskAdapterError RiskAdapterStep :=
  construct f.postInit fun h => ⟨f, h⟩

def PaperIntent.build (f : PaperIntent.Fields) : Except FillModelError PaperIntent :=
  construct f.postInit fun h => ⟨f, h⟩

structure RiskManagedPaperAdapter where
  identity : StrategyIdentity
  symbol : Symbol
  _fillEngine : PaperFillEngine
  _activeSetup : Option LongSetup
  _activeQuantity : Option String
  _lastSequence : Option ℤ
  _lastDecisionTimeMs : Option ℤ
deriving DecidableEq

namespace RiskManagedPaperAdapter

def init (identity : StrategyIdentity) (symbol : Symbol) :
    Except RiskAdapterError RiskManagedPaperAdapter := do
  raiseIf (identity ∉ RiskAdapter.supportedIdentities)
    ⟨"Risk adapter strategy identity is not supported"⟩
  return ⟨identity, symbol, .init symbol, none, none, none, none⟩

/-- The errors of a paper intent pass through unchanged. -/
inductive Error where
  | adapter (e : RiskAdapterError)
  | fill (e : FillModelError)
deriving Repr, DecidableEq

def hasPosition (s : RiskManagedPaperAdapter) : Prop := s._fillEngine.hasPosition

instance (s : RiskManagedPaperAdapter) : Decidable s.hasPosition := by
  unfold hasPosition
  infer_instance

def activeQuantity (s : RiskManagedPaperAdapter) : Option String := s._activeQuantity

/-- Every part of the authorization passes its own check again. -/
def Reconstructs (a : RiskAuthorization) : Prop :=
  let decision := a.request.strategyDecision
  decision.context.identity.toFields.postInit = .ok () ∧
    decision.context.snapshot.toFields.postInit = .ok () ∧
    decision.context.toFields.postInit = .ok () ∧ decision.toFields.postInit = .ok () ∧
    a.decision.toFields.postInit = .ok () ∧ a.toFields.postInit = .ok ()

instance (a : RiskAuthorization) : Decidable (Reconstructs a) := by
  unfold Reconstructs
  infer_instance

def _validate (s : RiskManagedPaperAdapter) (event : DecisionEvent)
    (authorization : RiskAuthorization) : Except RiskAdapterError Unit := do
  let decision := authorization.request.strategyDecision
  raiseIf (decision.context.identity ≠ s.identity ∨ decision.symbol ≠ s.symbol ∨
      event.snapshot.symbol ≠ s.symbol ∨ decision.decisionTimeMs ≠ event.decisionTimeMs ∨
      decision.context.snapshot ≠ event.snapshot)
    ⟨"Event and authorized strategy decision differ"⟩
  raiseIf (¬ Reconstructs authorization) ⟨"P4 authorization failed reconstruction"⟩
  let expectedSequence := s._lastSequence.elim 0 (· + 1)
  raiseIf (event.sequence ≠ expectedSequence ∨
      s._lastDecisionTimeMs.any fun last => event.decisionTimeMs ≤ last)
    ⟨"Duplicate or out-of-order authorized decision"⟩

def _paper (outcome : RiskAdapterOutcome) (f : PaperIntent.Fields) :
    Except Error (RiskAdapterOutcome × PaperIntent) := do
  let intent ← (PaperIntent.build f).mapError .fill
  return (outcome, intent)

/-- What an open position allows: its exit, or a decision to hold it. -/
def _openIntent (s : RiskManagedPaperAdapter) (a : RiskAuthorization) :
    Except Error (RiskAdapterOutcome × PaperIntent) := do
  let decision := a.request.strategyDecision
  if decision.action = .exitLong then
    raiseIf (a.decision.disposition ≠ .approvePaper)
      (.adapter ⟨"Risk-reducing exit lacks P4 authorization"⟩)
    raiseIf (a.decision.approvedQuantity ≠ s._activeQuantity)
      (.adapter ⟨"Exit portfolio quantity differs from P2 state"⟩)
    _paper .exitApproved { action := .exitLong, decisionTimeMs := decision.decisionTimeMs }
  else if decision.action = .noTrade ∧ decision.reason = .holdPosition ∧
      a.decision.disposition = .noAction ∧
      some a.request.portfolio.positionQuantity = s._activeQuantity then
    _paper .noAction { action := .hold, decisionTimeMs := decision.decisionTimeMs }
  else .error (.adapter ⟨"Open Paper state requires matching HOLD or EXIT"⟩)

/-- What a flat position allows: an approved or a blocked entry, or no trade. -/
def _flatIntent (a : RiskAuthorization) : Except Error (RiskAdapterOutcome × PaperIntent) :=
  let decision := a.request.strategyDecision
  if decision.action = .enterLong ∧ a.decision.disposition = .approvePaper then
    _paper .entryApproved {
      action := .enterLong
      decisionTimeMs := decision.decisionTimeMs
      quantity := a.decision.approvedQuantity
      stopPrice := decision.setup.map fun setup => setup.invalidationPrice
      targetPrice := decision.setup.map fun setup => setup.targetPrice }
  else if decision.action = .enterLong ∧ a.decision.disposition = .reject then
    _paper .entryBlocked { action := .hold, decisionTimeMs := decision.decisionTimeMs }
  else if decision.action = .noTrade ∧ decision.reason ≠ .holdPosition ∧
      a.decision.disposition = .noAction then
    _paper .noAction { action := .hold, decisionTimeMs := decision.decisionTimeMs }
  else .error (.adapter ⟨"Flat Paper state cannot process this authorization"⟩)

def _intent (s : RiskManagedPaperAdapter) (a : RiskAuthorization) :
    Except Error (RiskAdapterOutcome × PaperIntent) :=
  if s.hasPosition then s._openIntent a else _flatIntent a

/-- The arguments of `process`. -/
structure Call where
  event : DecisionEvent
  authorization : RiskAuthorization
  fillCandle : Candle

/-- What is remembered of the position after the engine has moved. -/
def _remember (outcome : RiskAdapterOutcome) (a : RiskAuthorization)
    (s : RiskManagedPaperAdapter) : RiskManagedPaperAdapter :=
  if s.hasPosition then
    if outcome = .entryApproved then
      { s with
        _activeSetup := a.request.strategyDecision.setup
        _activeQuantity := a.decision.approvedQuantity }
    else s
  else { s with _activeSetup := none, _activeQuantity := none }

/-- The engine call of `process`, with its error replaced. -/
def _engine (c : PaperFillEngine.Call) :
    Method RiskManagedPaperAdapter Error (List FillReference) :=
  zoom _fillEngine (fun engine s => { s with _fillEngine := engine })
    (fun _ => .adapter ⟨"P2 rejected the P4-authorized Paper intent"⟩) (PaperFillEngine.process c)

/-- The part of `process` after the step was built. -/
def _settle (c : Call) (step : RiskAdapterStep) :
    Method RiskManagedPaperAdapter Error RiskAdapterStep := do
  modify (_remember step.outcome c.authorization)
  let s ← read id
  check (raiseIf (¬ (s.hasPosition ↔ s._activeQuantity ≠ none))
    (.adapter ⟨"P4 and P2 Paper position states diverged"⟩))
  modify fun s => { s with
    _lastSequence := some c.event.sequence
    _lastDecisionTimeMs := some c.event.decisionTimeMs }
  return step

def process (c : Call) : Method RiskManagedPaperAdapter Error RiskAdapterStep := do
  let s ← read id
  check ((s._validate c.event c.authorization).mapError .adapter)
  let (outcome, intent) ← check (s._intent c.authorization)
  let fills ← _engine ⟨c.event, intent, c.fillCandle⟩
  let step ← check
    ((RiskAdapterStep.build ⟨c.authorization, outcome, intent, fills⟩).mapError .adapter)
  _settle c step

end RiskManagedPaperAdapter

end TradingLab
