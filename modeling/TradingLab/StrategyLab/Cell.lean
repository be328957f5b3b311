import TradingLab.Crisis.Replay

/-!
# The cells of the Strategy Lab

A cell runs one candidate over one fold of one market, with the engine and the
ledger of the paper runner. The labs have a loop each, and the loops are one: they
differ in what decides at an event, in the texts of their errors and in where a
decision is counted. Beside the ledger a loop keeps an account of its own: the
cash of the open trade, and the result of every closed one.
-/

namespace TradingLab

open Decimal PaperRunner

namespace StrategyLab

/-- What a cell raises: the error of its lab, or that of something it calls. -/
inductive CellError where
  | lab (message : String)
  | spec (e : BacktestConfigError)
  | clock (e : BacktestClockError)
  | evaluator (e : EvaluatorError)
  | contract (e : StrategyContractError)
  | runner (e : ForwardPaperRunnerError)
  | intent (e : FillModelError)
  | session (e : PaperSession.RunError)
  /-- An element of an empty tuple. -/
  | index

def _plain (d : Decimal) : String := Crisis._plain d

structure Counts where
  decision : ℕ := 0
  missingFill : ℕ := 0
  staleSnapshot : ℕ := 0
  entrySignal : ℕ := 0
  entryGapRejected : ℕ := 0
  entryFill : ℕ := 0
  exitFill : ℕ := 0
deriving Repr, DecidableEq

/-- The account a loop keeps beside the ledger. -/
structure Trades where
  openTradeCashDelta : Option Decimal := none
  tradePnls : List Decimal := []
deriving DecidableEq

/-- What a loop changes, with what its lab keeps. -/
structure CellState (σ : Type) where
  session : PaperSession
  activeSetup : Option LongSetup
  trades : Trades
  counts : Counts
  peak : Decimal
  maximumDrawdownFraction : Decimal
  own : σ

def initial : Decimal := ofText CandidateFreeze.initialEquityQuote

namespace CellState
variable {σ : Type}

def init (spec : BacktestSpec) (own : σ) : CellState σ where
  session := .init spec
  activeSetup := none
  trades := {}
  counts := {}
  peak := initial
  maximumDrawdownFraction := 0
  own := own

def counted (s : CellState σ) : CellState σ :=
  { s with counts := { s.counts with decision := s.counts.decision + 1 } }

def missed (s : CellState σ) : CellState σ :=
  { s with counts := { s.counts with missingFill := s.counts.missingFill + 1 } }

end CellState

inductive Ask where
  | enter (setup : LongSetup)
  | exit
  | hold

def Ask.setup : Ask → Option LongSetup
  | enter setup => some setup
  | exit => none
  | hold => none

/-- An entry asks for the setup its decision carries. -/
def ask (d : StrategyDecision) : Ask :=
  match h : d.action with
  | .enterLong => .enter (d.setup.get (Option.isSome_iff_ne_none.mpr (d.setup_of_enter h)))
  | .exitLong => .exit
  | .noTrade => .hold

/-- What is decided at an event, before anything is filled. -/
structure Decided (σ : Type) where
  /-- Nothing, when the strategy was not asked. -/
  asked : Option Ask
  intent : PaperIntent
  counts : Counts
  own : σ

structure Lab (σ : Type) where
  /-- How the texts of its errors begin. -/
  name : String
  overlap : String
  /-- A decision is counted before its candle is looked up. -/
  countsMissing : Bool
  /-- The setup of the open position is kept for the strategy. -/
  keepsSetup : Bool
  start : Symbol → Except CellError σ
  decide : CellState σ → Crisis.CrisisEvent → Candle → Except CellError (Decided σ)
  benchmark : List Candle → Except CellError (Option Decimal)

def _intent (f : PaperIntent.Fields) : Except CellError PaperIntent :=
  (construct f.postInit fun h => (⟨f, h⟩ : PaperIntent)).mapError .intent

def _hold (event : Crisis.CrisisEvent) : Except CellError PaperIntent :=
  _intent { action := .hold, decisionTimeMs := event.decisionTimeMs }

def _exit (event : Crisis.CrisisEvent) : Except CellError PaperIntent :=
  _intent { action := .exitLong, decisionTimeMs := event.decisionTimeMs }

def _enter (event : Crisis.CrisisEvent) (setup : LongSetup) : Except CellError PaperIntent :=
  _intent {
    action := .enterLong
    decisionTimeMs := event.decisionTimeMs
    quantity := runnerQuantity
    stopPrice := some setup.invalidationPrice
    targetPrice := some setup.targetPrice }

/-- The fill opens outside of the bracket. -/
def GapRejected (candle : Candle) (setup : LongSetup) : Prop :=
  ¬ (ofText setup.invalidationPrice < ofText candle.open' ∧
    ofText candle.open' < ofText setup.targetPrice)

instance (candle : Candle) (setup : LongSetup) : Decidable (GapRejected candle setup) := by
  unfold GapRejected
  infer_instance

/-- The intent of what a strategy asks for; `next` is what becomes of an entry in its bracket. -/
def _choose {σ : Type} (event : Crisis.CrisisEvent) (candle : Candle) (asked : Ask)
    (counts : Counts) (own : σ) (next : LongSetup → Except CellError (PaperIntent × σ)) :
    Except CellError (Decided σ) :=
  match asked with
  | .enter setup => do
      let counts := { counts with entrySignal := counts.entrySignal + 1 }
      if GapRejected candle setup then
        let intent ← _hold event
        return {
          asked, intent, own
          counts := { counts with entryGapRejected := counts.entryGapRejected + 1 } }
      else
        let (intent, own) ← next setup
        return { asked, intent, counts, own }
  | .exit => do
      let intent ← _exit event
      return { asked, intent, counts, own }
  | .hold => do
      let intent ← _hold event
      return { asked, intent, counts, own }

/-- Over a stale view the strategy is not asked. -/
def _stale {σ : Type} (event : Crisis.CrisisEvent) (counts : Counts) (own : σ) :
    Except CellError (Decided σ) := do
  let intent ← _hold event
  return {
    asked := none
    intent, own
    counts := { counts with staleSnapshot := counts.staleSnapshot + 1 } }

def _drawdownUpdate (equity peak maximumFraction : Decimal) : Decimal × Decimal :=
  let peak := larger peak equity
  let fraction := quotient decimalPrecision (sub decimalPrecision peak equity) peak
  (peak, larger maximumFraction fraction)

namespace Lab
variable {σ : Type}

def failed (lab : Lab σ) (message : String) : CellError := .lab (lab.name ++ " " ++ message)

/-- Enter a fill into the account of the trades. -/
def account (lab : Lab σ) (kept : Trades × Counts) (fill : CostedFill) :
    Except CellError (Trades × Counts) :=
  if fill.reference.action = .enterLong then do
    raiseIf (kept.1.openTradeCashDelta.isSome) (lab.failed lab.overlap)
    return ({ kept.1 with openTradeCashDelta := some fill.cashDelta },
      { kept.2 with entryFill := kept.2.entryFill + 1 })
  else
    match kept.1.openTradeCashDelta with
    | none => .error (lab.failed "exit has no paired entry")
    | some opened => .ok (
        { openTradeCashDelta := none
          tradePnls := kept.1.tradePnls ++ [add decimalPrecision opened fill.cashDelta] },
        { kept.2 with exitFill := kept.2.exitFill + 1 })

/-- The setup that goes with the position after the fills of an event. -/
def activeSetup (lab : Lab σ) (held : Bool) (intent : PaperIntent) (asked : Option Ask)
    (active : Option LongSetup) : Except CellError (Option LongSetup) :=
  if ¬ lab.keepsSetup then .ok active
  else if held then
    match intent.action, asked with
    | .enterLong, some asked => .ok asked.setup
    | _, _ => if active = none then .error (lab.failed "open position lost setup state")
        else .ok active
  else .ok none

/-- Fill the intent, and look at the drawdown. -/
def settle (lab : Lab σ) (s : CellState σ) (event : Crisis.CrisisEvent) (candle : Candle)
    (decided : Decided σ) : Except CellError (CellState σ) := do
  let filled ← (s.session.acceptAt ⟨event.moment, decided.intent, candle⟩).mapError .session
  let (trades, counts) ← filled.1.foldlM lab.account (s.trades, decided.counts)
  let activeSetup ← lab.activeSetup (Decidable.decide filled.2.engine.hasPosition) decided.intent
    decided.asked s.activeSetup
  let snapshot ← (filled.2.ledger.snapshot candle.open').mapError fun e => .session (.snapshot e)
  let (peak, maximumDrawdownFraction) :=
    _drawdownUpdate snapshot.equityQuote s.peak s.maximumDrawdownFraction
  return {
    session := filled.2
    activeSetup, trades, counts, peak, maximumDrawdownFraction
    own := decided.own }

/-- The candle an event is filled in, if there is one, and the check of what the event shows. -/
def fillCandle (lab : Lab σ) (dataset : AcceptedBacktestDataset) (event : Crisis.CrisisEvent) :
    Except CellError (Option Candle) :=
  match dataset.primary.find? fun c => c.openTimeMs = event.eligibleFillOpenTimeMs with
  | none => .ok none
  | some candle => do
      raiseIf (¬ candle.isClosed) (lab.failed "fill candle is not closed")
      raiseIf (∃ c ∈ event.snapshot.primary ++ event.snapshot.context ++ event.snapshot.regime,
          event.decisionTimeMs ≤ c.closeTimeMs) (lab.failed "decision contains future data")
      return some candle

def step (lab : Lab σ) (dataset : AcceptedBacktestDataset) (s : CellState σ)
    (event : Crisis.CrisisEvent) : Except CellError (CellState σ) := do
  match ← lab.fillCandle dataset event with
  | none => return (if lab.countsMissing then s.counted else s).missed
  | some candle => do
      let s := s.counted
      let decided ← lab.decide s event candle
      lab.settle s event candle decided

def steps (lab : Lab σ) (dataset : AcceptedBacktestDataset) (events : List Crisis.CrisisEvent)
    (s : CellState σ) : Except CellError (CellState σ) :=
  events.foldlM (lab.step dataset) s

end Lab

def Trades.realized (t : Trades) : Decimal := sum defaultPrecision t.tradePnls
def Trades.wins (t : Trades) : List Decimal := t.tradePnls.filter fun d => 0 < d
def Trades.losses (t : Trades) : List Decimal := t.tradePnls.filter fun d => d < 0
def Trades.grossProfit (t : Trades) : Decimal := sum defaultPrecision t.wins
def Trades.grossLoss (t : Trades) : Decimal := neg defaultPrecision (sum defaultPrecision t.losses)

def _profitFactor (grossProfit grossLoss : Decimal) : Option String × Bool :=
  if grossLoss ≈ 0 then (none, 0 < grossProfit)
  else (some (_plain (quotient decimalPrecision grossProfit grossLoss)), false)

structure CellRow (σ : Type) where
  counts : Counts
  completedTrades : ℕ
  wins : ℕ
  losses : ℕ
  breakevenTrades : ℤ
  winRate : Option String
  expectancyQuote : Option String
  grossProfitQuote : String
  grossLossQuote : String
  profitFactor : Option String
  profitFactorInfinite : Bool
  largestPositiveTradeQuote : String
  largestTradeProfitShare : Option String
  initialEquityQuote : String
  finalEquityQuote : String
  netPnlAfterCostsQuote : String
  netReturnAfterCosts : String
  realizedClosedTradePnlQuote : String
  unrealizedLiquidationNetPnlQuote : String
  executedFeeQuote : String
  executedSlippageQuote : String
  executedTotalCostQuote : String
  maximumDrawdownFraction : String
  buyAndHoldReturnFraction : Option String
  excessReturnVsBuyAndHoldFraction : Option String
  openPositionAtFoldEnd : Bool
  own : σ

def Reconciles (t : Trades) (final : PortfolioSnapshot) : Prop :=
  t.realized ≈ final.realizedPnlQuote

instance (t : Trades) (final : PortfolioSnapshot) : Decidable (Reconciles t final) := by
  unfold Reconciles
  infer_instance

namespace Lab
variable {σ : Type}

/-- What is left to do after the last event. -/
def finish (lab : Lab σ) (s : CellState σ) (analysis : List Candle) (last : Candle) :
    Except CellError (CellRow σ) := do
  let final ← (s.session.ledger.snapshot last.close).mapError fun e => .session (.snapshot e)
  let maximumDrawdownFraction :=
    (_drawdownUpdate final.equityQuote s.peak s.maximumDrawdownFraction).2
  raiseIf (¬ Reconciles s.trades final)
    (lab.failed "closed-trade accounting disagrees with ledger")
  let t := s.trades
  let completed := t.tradePnls.length
  let per := fun d : Decimal => if completed = 0 then none
    else some (_plain (quotient decimalPrecision d ⟨false, completed, 0⟩))
  let net := sub decimalPrecision final.equityQuote initial
  let netReturn := quotient decimalPrecision net initial
  let largestPositive := Features.maximum t.wins
  let buyHold ← lab.benchmark analysis
  let factor := _profitFactor t.grossProfit t.grossLoss
  return {
    counts := s.counts
    completedTrades := completed
    wins := t.wins.length
    losses := t.losses.length
    breakevenTrades := completed - t.wins.length - t.losses.length
    winRate := per ⟨false, t.wins.length, 0⟩
    expectancyQuote := per t.realized
    grossProfitQuote := _plain t.grossProfit
    grossLossQuote := _plain t.grossLoss
    profitFactor := factor.1
    profitFactorInfinite := factor.2
    largestPositiveTradeQuote := _plain largestPositive
    largestTradeProfitShare := if 0 < t.grossProfit then
      some (_plain (quotient decimalPrecision largestPositive t.grossProfit)) else none
    initialEquityQuote := _plain initial
    finalEquityQuote := _plain final.equityQuote
    netPnlAfterCostsQuote := _plain net
    netReturnAfterCosts := _plain netReturn
    realizedClosedTradePnlQuote := _plain t.realized
    unrealizedLiquidationNetPnlQuote := _plain final.unrealizedPnlQuote
    executedFeeQuote := _plain final.totalFeeQuote
    executedSlippageQuote := _plain final.totalSlippageQuote
    executedTotalCostQuote := _plain (add defaultPrecision final.totalFeeQuote
      final.totalSlippageQuote)
    maximumDrawdownFraction := _plain maximumDrawdownFraction
    buyAndHoldReturnFraction := buyHold.map _plain
    excessReturnVsBuyAndHoldFraction := buyHold.map fun d => _plain (sub decimalPrecision netReturn d)
    openPositionAtFoldEnd := Decidable.decide s.session.engine.hasPosition
    own := s.own }

/-- The candles of the fold. -/
def analysisPrimary (dataset : AcceptedBacktestDataset) : List Candle :=
  dataset.primary.filter fun c =>
    dataset.spec.startTimeMs ≤ c.openTimeMs ∧ c.openTimeMs < dataset.spec.endTimeMs

/-- The events of a cell, with its candles. -/
def opened (lab : Lab σ) (dataset : AcceptedBacktestDataset) :
    Except CellError (List Crisis.CrisisEvent × List Candle) := do
  raiseIf (¬ (dataset.primary.map fun c => c.openTimeMs).Nodup)
    (lab.failed "primary candles are duplicated")
  let events ← (Crisis.gridEvents dataset).mapError .clock
  raiseIf (events = []) (lab.failed "fold has no decision events")
  raiseIf (analysisPrimary dataset = []) (lab.failed "fold has no analysis candles")
  return (events, analysisPrimary dataset)

/-- Everything of a cell before its row. -/
def run (lab : Lab σ) (dataset : AcceptedBacktestDataset) :
    Except CellError (List Candle × CellState σ) := do
  let (events, analysis) ← lab.opened dataset
  let own ← lab.start dataset.spec.symbol
  let s ← lab.steps dataset events (.init dataset.spec own)
  return (analysis, s)

def _runCell (lab : Lab σ) (dataset : AcceptedBacktestDataset) : Except CellError (CellRow σ) := do
  let (analysis, s) ← lab.run dataset
  match analysis.getLast? with
  | none => .error .index
  | some last => lab.finish s analysis last

end Lab

structure AdmittedControlCorpus where
  datasets : Symbol → Interval → List Candle
  retrievedAtMs : ℤ

def _dataset (corpus : AdmittedControlCorpus) (symbol : Symbol)
    (evaluationStartMs evaluationEndMs : ℤ) : Except CellError AcceptedBacktestDataset :=
  let values := corpus.datasets symbol
  match (values .h4).head?, (values .m15).getLast?, (values .h1).getLast?, (values .h4).getLast? with
  | some first, some m15, some h1, some h4 => do
      let warmupReady := first.openTimeMs + regimeWarmupBars * Interval.h4.milliseconds
      let commonEnd := min (m15.openTimeMs + Interval.m15.milliseconds)
        (min (h1.openTimeMs + Interval.h1.milliseconds) (h4.openTimeMs + Interval.h4.milliseconds))
      let hour := Interval.h1.milliseconds
      raiseIf (evaluationStartMs < warmupReady) (.lab "HSL fold lacks strategy warmup")
      raiseIf (commonEnd / hour * hour < evaluationEndMs)
        (.lab "HSL fold exceeds admitted corpus")
      let spec ← (PaperRunner._spec symbol evaluationStartMs evaluationEndMs).mapError .spec
      return {
        spec
        manifestGeneratedAtMs := corpus.retrievedAtMs
        primary := values .h1
        context := values .m15
        regime := values .h4 }
  | _, _, _, _ => .error .index

end StrategyLab

end TradingLab
