import TradingLab.Backtest.Clock
import TradingLab.Backtest.Reconcile
import TradingLab.Strategy.Adapter
import TradingLab.Validation.ForwardStore
import TradingLab.Validation.RiskTracker

/-!
# The forward paper runner

The runner replays the frozen candidate over the stored prefix of the window,
one event for each hour. An entry has to pass a veto with the numbers of the risk
policy; its quantity is fixed. The replay of a market depends on nothing but the
stored candles, so that a second replay cannot differ from the first.
-/

namespace TradingLab

open Decimal

def regimeWarmupBars : ℤ := 51
def runnerQuantity : String := "0.001"

inductive ForwardRunError where
  | runner (e : ForwardPaperRunnerError)
  | config (e : BacktestConfigError)
  | clock (e : BacktestClockError)
  | evaluator (e : EvaluatorError)
  | intent (e : FillModelError)
  | session (e : PaperSession.RunError)
  /-- `dataset.primary[-1]` of an empty tuple. -/
  | index

namespace PaperRunner

def failed (message : String) : ForwardRunError := .runner ⟨message⟩

structure PortfolioRecord where
  symbol : Symbol
  cash : String
  assetQuantity : String
  costBasisQuote : String
  liquidationValueQuote : String
  realizedPnlQuote : String
  unrealizedPnlQuote : String
  equityQuote : String
  totalFeeQuote : String
  totalSlippageQuote : String
  closedTrades : ℤ
deriving Repr, DecidableEq

def _portfolioRecord (s : PortfolioSnapshot) : PortfolioRecord where
  symbol := s.symbol
  cash := _plain s.cash
  assetQuantity := _plain s.assetQuantity
  costBasisQuote := _plain s.costBasisQuote
  liquidationValueQuote := _plain s.liquidationValueQuote
  realizedPnlQuote := _plain s.realizedPnlQuote
  unrealizedPnlQuote := _plain s.unrealizedPnlQuote
  equityQuote := _plain s.equityQuote
  totalFeeQuote := _plain s.totalFeeQuote
  totalSlippageQuote := _plain s.totalSlippageQuote
  closedTrades := s.closedTrades

structure FillRecord where
  action : IntentAction
  decisionTimeMs : ℤ
  fillTimeMs : ℤ
  quantity : String
  referencePrice : String
  reason : FillReason
  executionPrice : String
  grossQuote : String
  feeQuote : String
  slippageQuote : String
  cashDelta : String
  assetDelta : String
  totalCostQuote : String
deriving Repr, DecidableEq

def _fillRecord (f : CostedFill) : FillRecord where
  action := f.reference.action
  decisionTimeMs := f.reference.decisionTimeMs
  fillTimeMs := f.reference.fillTimeMs
  quantity := f.reference.quantity
  referencePrice := f.reference.referencePrice
  reason := f.reference.reason
  executionPrice := _plain f.executionPrice
  grossQuote := _plain f.grossQuote
  feeQuote := _plain f.feeQuote
  slippageQuote := _plain f.slippageQuote
  cashDelta := _plain f.cashDelta
  assetDelta := _plain f.assetDelta
  totalCostQuote := _plain f.totalCostQuote

end PaperRunner

inductive EntryVetoReason where
  | killSwitchActive
  | sessionLossLimit
  | drawdownLimit
  | consecutiveLossLimit
  | openPositionLimit
  | cashInsufficient
  | positionLimit
  | grossExposureLimit
  | plannedLossLimit
  | invalidProtectiveLevels
  | nonPositivePostCostReward
deriving Repr, DecidableEq

/-- The reasons in the order of their definition. -/
def EntryVetoReason.all : List EntryVetoReason :=
  [killSwitchActive, sessionLossLimit, drawdownLimit, consecutiveLossLimit, openPositionLimit,
    cashInsufficient, positionLimit, grossExposureLimit, plannedLossLimit, invalidProtectiveLevels,
    nonPositivePostCostReward]

/-- The outcome of a veto. The quantity is always that of the runner. -/
structure EntrySafetyVeto where
  reasons : List EntryVetoReason
  riskBudgetQuote : String
  plannedLossQuote : String
  entryNotionalQuote : String
  cashRequiredQuote : String
  positionLimitQuote : String
  grossExposureAfterQuote : String
  grossExposureLimitQuote : String
  netRewardQuote : String
deriving Repr, DecidableEq

/-- An entry is allowed when no reason speaks against it. -/
def EntrySafetyVeto.allowed (v : EntrySafetyVeto) : Bool := v.reasons.isEmpty

namespace EntryVeto

def feeRate : Decimal := quotient decimalPrecision (ofText "10") basisPoints
def slippageRate : Decimal := quotient decimalPrecision (ofText "5") basisPoints
def quantity : Decimal := ofText runnerQuantity

def bought (price : Decimal) : Decimal :=
  mul decimalPrecision price (add decimalPrecision 1 slippageRate)

def sold (price : Decimal) : Decimal :=
  mul decimalPrecision price (sub decimalPrecision 1 slippageRate)

def fee (execution : Decimal) : Decimal :=
  mul decimalPrecision (mul decimalPrecision quantity execution) feeRate

structure Amounts where
  cash : Decimal
  entryExecution : Decimal
  stopExecution : Decimal
  targetExecution : Decimal
  plannedLoss : Decimal
  riskBudget : Decimal
  entryNotional : Decimal
  cashRequired : Decimal
  positionLimit : Decimal
  grossAfter : Decimal
  grossLimit : Decimal
  netReward : Decimal
  sessionLoss : Decimal
  sessionLimit : Decimal
  drawdown : Decimal
  drawdownLimit : Decimal

def amounts (setup : LongSetup) (state : ValidationRiskState) (policy : RiskPolicy) : Amounts :=
  let equity := ofText state.equityQuote
  let peak := ofText state.peakEquityQuote
  let entryExecution := bought (ofText setup.referencePrice)
  let stopExecution := sold (ofText setup.invalidationPrice)
  let targetExecution := sold (ofText setup.targetPrice)
  let entryNotional := mul decimalPrecision quantity entryExecution
  let grossBefore := mul decimalPrecision (ofText state.positionQuantity) (ofText state.markPrice)
  { cash := ofText state.cashQuote
    entryExecution
    stopExecution
    targetExecution
    plannedLoss := add decimalPrecision (add decimalPrecision
      (mul decimalPrecision quantity (sub decimalPrecision entryExecution stopExecution))
      (fee entryExecution)) (fee stopExecution)
    riskBudget := mul decimalPrecision equity (ofText policy.riskPerTradeFraction)
    entryNotional
    cashRequired := add decimalPrecision entryNotional (fee entryExecution)
    positionLimit := mul decimalPrecision equity (ofText policy.maxPositionFraction)
    grossAfter := add decimalPrecision grossBefore entryNotional
    grossLimit := mul decimalPrecision equity (ofText policy.maxGrossExposureFraction)
    netReward := sub decimalPrecision (sub decimalPrecision
      (mul decimalPrecision quantity (sub decimalPrecision targetExecution entryExecution))
      (fee entryExecution)) (fee targetExecution)
    sessionLoss := larger (neg decimalPrecision (ofText state.sessionRealizedPnlQuote)) 0
    sessionLimit := mul decimalPrecision (ofText state.sessionStartEquityQuote)
      (ofText policy.maxSessionLossFraction)
    drawdown := sub decimalPrecision peak equity
    drawdownLimit := mul decimalPrecision peak (ofText policy.maxDrawdownFraction) }

/-- Whether a reason speaks against the entry. -/
def applies (a : Amounts) (state : ValidationRiskState) (policy : RiskPolicy) :
    EntryVetoReason → Bool
  | .killSwitchActive => state.killSwitchActive
  | .sessionLossLimit => a.sessionLimit ≤ a.sessionLoss
  | .drawdownLimit => a.drawdownLimit ≤ a.drawdown
  | .consecutiveLossLimit => policy.maxConsecutiveLosses ≤ state.consecutiveLosses
  | .openPositionLimit => policy.maxOpenPositions ≤ state.openPositions
  | .cashInsufficient => a.cash < a.cashRequired
  | .positionLimit => a.positionLimit < a.entryNotional
  | .grossExposureLimit => a.grossLimit < a.grossAfter
  | .plannedLossLimit => a.riskBudget < a.plannedLoss
  | .invalidProtectiveLevels => ¬ (0 < a.stopExecution ∧ a.stopExecution < a.entryExecution ∧
      a.entryExecution < a.targetExecution)
  | .nonPositivePostCostReward => a.netReward ≤ 0

end EntryVeto

open EntryVeto PaperRunner in
def assessFixedQuantityEntry (decision : StrategyDecision) (state : ValidationRiskState)
    (policy : RiskPolicy := .frozen) : Except ForwardPaperRunnerError EntrySafetyVeto :=
  match decision.setup with
  | none => .error ⟨"P10 entry-veto input is invalid"⟩
  | some setup => do
      raiseIf (decision.action ≠ .enterLong ∨ runnerQuantity ≠ fixedResearchQuantity)
        ⟨"P10 entry-veto input is invalid"⟩
      let a := amounts setup state policy
      return {
        reasons := EntryVetoReason.all.filter (applies a state policy)
        riskBudgetQuote := _plain a.riskBudget
        plannedLossQuote := _plain a.plannedLoss
        entryNotionalQuote := _plain a.entryNotional
        cashRequiredQuote := _plain a.cashRequired
        positionLimitQuote := _plain a.positionLimit
        grossExposureAfterQuote := _plain a.grossAfter
        grossExposureLimitQuote := _plain a.grossLimit
        netRewardQuote := _plain a.netReward }

namespace PaperRunner

/-- The last evidence of a market and interval, as a dictionary keeps it. -/
def _evidence (snapshot : ForwardIngestionSnapshot) (symbol : Symbol) (interval : Interval) :
    Option ForwardDatasetEvidence :=
  (snapshot.datasets.filter fun e => e.symbol = symbol ∧ e.interval = interval).getLast?

/-- The store still holds what an evidence was made from. -/
def _verifyEvidence (store : ForwardCandleStore) (e : ForwardDatasetEvidence) :
    Except ForwardPaperRunnerError Unit := do
  let candles ← (store.candlesBetween e.symbol e.interval e.requestedStartTimeMs
    e.requestedEndTimeMs).mapError fun _ =>
      ⟨"P10 runner store cannot reproduce accepted ingestion evidence"⟩
  raiseIf ((candles.length : ℤ) ≠ e.totalRows ∨ _datasetDigest candles ≠ e.datasetSha256)
    ⟨"P10 runner store differs from accepted ingestion evidence"⟩

def _verifyAll (store : ForwardCandleStore) :
    List ForwardDatasetEvidence → Except ForwardPaperRunnerError Unit
  | [] => return ()
  | e :: es => do
      _verifyEvidence store e
      _verifyAll store es

def _verifySnapshotStore (store : ForwardCandleStore) (snapshot : ForwardIngestionSnapshot) :
    Except ForwardPaperRunnerError Unit := _verifyAll store snapshot.datasets

def firstDecisionTimeMs : ℤ :=
  forwardWindowStartMs + regimeWarmupBars * regimeInterval.milliseconds

/-- The end that the evidence of all intervals reaches. -/
def _commonEnd (snapshot : ForwardIngestionSnapshot) (symbol : Symbol) :
    Except ForwardRunError ℤ :=
  match _evidence snapshot symbol .m15, _evidence snapshot symbol .h1,
      _evidence snapshot symbol .h4 with
  | some context, some primary, some regime =>
      .ok (min context.requestedEndTimeMs
        (min primary.requestedEndTimeMs regime.requestedEndTimeMs))
  | _, _, _ => .error (failed "P10 runner dataset scope is incomplete")

def _spec (symbol : Symbol) (startTimeMs endTimeMs : ℤ) : Except BacktestConfigError BacktestSpec :=
  let fields : BacktestSpec.Fields := {
    symbol, startTimeMs, endTimeMs
    initialCash := CandidateFreeze.initialEquityQuote
    feeBps := CandidateFreeze.feeBps
    slippageBps := CandidateFreeze.slippageBps }
  construct fields.postInit fun h => ⟨fields, h⟩

/-- The stored prefix of one interval. -/
def _prefix (store : ForwardCandleStore) (symbol : Symbol) (commonEnd : ℤ) (interval : Interval) :
    Except ForwardRunError (List Candle) :=
  (store.candlesBetween symbol interval forwardWindowStartMs commonEnd).mapError fun _ =>
    failed "P10 runner cannot read the sealed forward prefix"

/-- The dataset of a market, with the digest of its candles. -/
def _datasetForSymbol (store : ForwardCandleStore) (snapshot : ForwardIngestionSnapshot)
    (symbol : Symbol) : Except ForwardRunError (AcceptedBacktestDataset × String) := do
  let commonEnd ← _commonEnd snapshot symbol
  raiseIf (commonEnd ≤ firstDecisionTimeMs)
    (failed "Forward prefix does not yet contain the frozen strategy warmup")
  let spec ← (_spec symbol firstDecisionTimeMs commonEnd).mapError .config
  let context ← _prefix store symbol commonEnd .m15
  let primary ← _prefix store symbol commonEnd .h1
  let regime ← _prefix store symbol commonEnd .h4
  return ({
    spec
    manifestGeneratedAtMs := snapshot.generatedAtMs
    primary, context, regime }, _datasetDigest (context ++ primary ++ regime))

structure Counts where
  entry : ℕ := 0
  allowed : ℕ := 0
  blocked : ℕ := 0
  exit : ℕ := 0
  noTrade : ℕ := 0
deriving Repr, DecidableEq

structure TraceRow where
  sequence : ℤ
  decisionTimeMs : ℤ
  contextSha256 : String
  strategyAction : StrategyAction
  strategyReason : DecisionReason
  effectiveIntent : IntentAction
  entryVeto : Option EntrySafetyVeto
  riskState : ValidationRiskState
  fillCount : ℕ
deriving Repr, DecidableEq

structure Replay where
  session : PaperSession
  riskTracker : _RiskTracker
  activeSetup : Option LongSetup
  trace : List TraceRow
  fills : List FillRecord
  counts : Counts

def Replay.init (spec : BacktestSpec) : Replay where
  session := .init spec
  riskTracker := .init spec.symbol CandidateFreeze.initialEquityQuote
  activeSetup := none
  trace := []
  fills := []
  counts := {}

def _intent (f : PaperIntent.Fields) : Except ForwardRunError PaperIntent :=
  (construct f.postInit fun h => (⟨f, h⟩ : PaperIntent)).mapError .intent

/-- The intent of a decision, with the veto of an entry. -/
def _choose (event : DecisionEvent) (decision : StrategyDecision) (state : ValidationRiskState)
    (counts : Counts) : Except ForwardRunError (Option EntrySafetyVeto × PaperIntent × Counts) :=
  match decision.action with
  | .enterLong => do
      let veto ← (assessFixedQuantityEntry decision state).mapError .runner
      if veto.allowed then
        let intent ← _intent {
          action := .enterLong
          decisionTimeMs := event.decisionTimeMs
          quantity := runnerQuantity
          stopPrice := decision.setup.map fun s => s.invalidationPrice
          targetPrice := decision.setup.map fun s => s.targetPrice }
        return (some veto, intent,
          { counts with entry := counts.entry + 1, allowed := counts.allowed + 1 })
      else
        let intent ← _intent { action := .hold, decisionTimeMs := event.decisionTimeMs }
        return (some veto, intent,
          { counts with entry := counts.entry + 1, blocked := counts.blocked + 1 })
  | .exitLong => do
      let intent ← _intent { action := .exitLong, decisionTimeMs := event.decisionTimeMs }
      return (none, intent, { counts with exit := counts.exit + 1 })
  | .noTrade => do
      let intent ← _intent { action := .hold, decisionTimeMs := event.decisionTimeMs }
      return (none, intent, { counts with noTrade := counts.noTrade + 1 })

/-- The setup that goes with the position after the fills of an event. -/
def _activeSetup (held : Bool) (intent : PaperIntent) (decision : StrategyDecision)
    (active : Option LongSetup) : Except ForwardRunError (Option LongSetup) :=
  if held then
    if intent.action = .enterLong then .ok decision.setup
    else if active = none then .error (failed "Forward Paper position lost its frozen setup")
    else .ok active
  else .ok none

/-- What the tracker is shown at an event. -/
def Replay.observation (s : Replay) (event : DecisionEvent) :
    Except ForwardRunError Observation := do
  let mark := event.snapshot.latestPrimary.close
  let pre ← (s.session.ledger.snapshot mark).mapError fun e => .session (.snapshot e)
  return ⟨event.decisionTimeMs, pre, mark⟩

/-- The candle an event is filled in, and the check of what the event shows. -/
def _fillCandle (dataset : AcceptedBacktestDataset) (event : DecisionEvent) :
    Except ForwardRunError Candle :=
  match dataset.primary.find? fun c => c.openTimeMs = event.eligibleFillOpenTimeMs with
  | none => .error (failed "Forward next-open candle is missing or not closed")
  | some candle => do
      raiseIf (¬ candle.isClosed) (failed "Forward next-open candle is missing or not closed")
      raiseIf (∃ c ∈ event.snapshot.primary ++ event.snapshot.context ++ event.snapshot.regime,
          event.decisionTimeMs ≤ c.closeTimeMs)
        (failed "Forward decision contains future data")
      return candle

def Replay.step (dataset : AcceptedBacktestDataset) (s : Replay) (event : DecisionEvent) :
    Except ForwardRunError Replay := do
  let candle ← _fillCandle dataset event
  let observation ← s.observation event
  let observed ← (s.riskTracker.observe observation).mapError .runner
  let decision ← (evaluateTrendPullback (.of trendPullbackIdentity event.snapshot)
    (decide s.session.engine.hasPosition) s.activeSetup).mapError .evaluator
  let chosen ← _choose event decision observed.1 s.counts
  let filled ← (s.session.accept ⟨event, chosen.2.1, candle⟩).mapError .session
  let activeSetup ← _activeSetup (decide filled.2.engine.hasPosition) chosen.2.1 decision
    s.activeSetup
  return {
    session := filled.2
    riskTracker := observed.2
    activeSetup
    trace := s.trace ++ [{
      sequence := event.sequence
      decisionTimeMs := event.decisionTimeMs
      contextSha256 := decision.contextSha256
      strategyAction := decision.action
      strategyReason := decision.reason
      effectiveIntent := chosen.2.1.action
      entryVeto := chosen.1
      riskState := observed.1
      fillCount := filled.1.length }]
    fills := s.fills ++ filled.1.map _fillRecord
    counts := chosen.2.2 }

/-- The loop over the events. -/
def Replay.steps (dataset : AcceptedBacktestDataset) :
    List DecisionEvent → Replay → Except ForwardRunError Replay
  | [], s => return s
  | event :: events, s => do
      let next ← s.step dataset event
      steps dataset events next

structure ForwardPaperSymbolResult where
  symbol : Symbol
  inputDatasetSha256 : String
  firstDecisionTimeMs : ℤ
  endTimeMs : ℤ
  eventCount : ℕ
  entrySignals : ℕ
  entriesAllowed : ℕ
  entriesBlocked : ℕ
  exitSignals : ℕ
  noTradeSignals : ℕ
  killSwitchLatched : Bool
  trace : List TraceRow
  fills : List FillRecord
  finalPortfolio : PortfolioRecord
deriving DecidableEq

/-- The events of a dataset whose hourly candles are all different. -/
def _events (dataset : AcceptedBacktestDataset) : Except ForwardRunError (List DecisionEvent) := do
  let events ← (BacktestClock.events dataset).mapError .clock
  raiseIf (events = []) (failed "Forward Paper runner has no legal event")
  raiseIf (¬ (dataset.primary.map fun c => c.openTimeMs).Nodup)
    (failed "Forward primary candles are duplicated")
  return events

/-- The result of a dataset. -/
def _replay (symbol : Symbol) (dataset : AcceptedBacktestDataset) (inputDatasetSha256 : String) :
    Except ForwardRunError ForwardPaperSymbolResult := do
  let events ← _events dataset
  let s ← Replay.steps dataset events (.init dataset.spec)
  match dataset.primary.getLast? with
  | none => .error .index
  | some last => do
      let portfolio ← (s.session.ledger.snapshot last.close).mapError
        fun e => .session (.snapshot e)
      return {
        symbol
        inputDatasetSha256
        firstDecisionTimeMs := dataset.spec.startTimeMs
        endTimeMs := dataset.spec.endTimeMs
        eventCount := events.length
        entrySignals := s.counts.entry
        entriesAllowed := s.counts.allowed
        entriesBlocked := s.counts.blocked
        exitSignals := s.counts.exit
        noTradeSignals := s.counts.noTrade
        killSwitchLatched := s.riskTracker.killSwitchActive
        trace := s.trace
        fills := s.fills
        finalPortfolio := _portfolioRecord portfolio }

def _runSymbol (store : ForwardCandleStore) (snapshot : ForwardIngestionSnapshot)
    (symbol : Symbol) : Except ForwardRunError ForwardPaperSymbolResult := do
  let (dataset, inputDatasetSha256) ← _datasetForSymbol store snapshot symbol
  _replay symbol dataset inputDatasetSha256

/-- The results of both markets. The source replays each market twice and compares. -/
def runForwardPaper (store : ForwardCandleStore) (snapshot : ForwardIngestionSnapshot) :
    Except ForwardRunError (List ForwardPaperSymbolResult) := do
  (_verifySnapshotStore store snapshot).mapError .runner
  let btcusdt ← _runSymbol store snapshot .btcusdt
  let ethusdt ← _runSymbol store snapshot .ethusdt
  return [btcusdt, ethusdt]

end PaperRunner

end TradingLab
