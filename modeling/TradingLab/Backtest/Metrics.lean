import TradingLab.Backtest.Snapshot
import TradingLab.Decimal.Sum

/-!
# Performance metrics

A curve starts at a clean flat portfolio, closes at most one trade between two
points and ends flat. A report holds its curve together with the values computed
from it, and its constructor computes them again.
-/

namespace TradingLab

open Decimal

structure MetricsError where
  message : String
deriving Repr, DecidableEq

namespace EquityPoint

structure Fields where
  timeMs : ℤ
  portfolio : PortfolioSnapshot
deriving DecidableEq

def Fields.postInit (p : Fields) : Except MetricsError Unit :=
  raiseIf (p.timeMs < 0) ⟨"Equity point time is invalid"⟩

end EquityPoint

structure EquityPoint extends EquityPoint.Fields where
  valid : toFields.postInit = .ok ()
deriving DecidableEq

def EquityPoint.build (f : Fields) : Except MetricsError EquityPoint :=
  construct f.postInit fun h => ⟨f, h⟩

/-- The fields of `_MetricValues`. -/
structure MetricValues (α : Type) where
  initialEquityQuote : α
  finalEquityQuote : α
  totalReturn : α
  tradeCount : ℤ
  winningTrades : ℕ
  losingTrades : ℕ
  breakevenTrades : ℕ
  winRate : Option α
  grossPnlQuote : α
  netPnlQuote : α
  totalFeeQuote : α
  totalSlippageQuote : α
  totalCostQuote : α
  maximumDrawdownQuote : α
  maximumDrawdown : α
  meanPeriodReturn : Option α
  samplePeriodVolatility : Option α
  downsideDeviation : Option α
  meanOverVolatility : Option α
  meanOverDownside : Option α
deriving Repr, DecidableEq

def MetricValues.map {α β : Type} (f : α → β) (v : MetricValues α) : MetricValues β where
  initialEquityQuote := f v.initialEquityQuote
  finalEquityQuote := f v.finalEquityQuote
  totalReturn := f v.totalReturn
  tradeCount := v.tradeCount
  winningTrades := v.winningTrades
  losingTrades := v.losingTrades
  breakevenTrades := v.breakevenTrades
  winRate := v.winRate.map f
  grossPnlQuote := f v.grossPnlQuote
  netPnlQuote := f v.netPnlQuote
  totalFeeQuote := f v.totalFeeQuote
  totalSlippageQuote := f v.totalSlippageQuote
  totalCostQuote := f v.totalCostQuote
  maximumDrawdownQuote := f v.maximumDrawdownQuote
  maximumDrawdown := f v.maximumDrawdown
  meanPeriodReturn := v.meanPeriodReturn.map f
  samplePeriodVolatility := v.samplePeriodVolatility.map f
  downsideDeviation := v.downsideDeviation.map f
  meanOverVolatility := v.meanOverVolatility.map f
  meanOverDownside := v.meanOverDownside.map f

/-- What must hold from one point to the next. -/
def EquityPoint.Continues (symbol : Symbol) (previous point : EquityPoint) : Prop :=
  let current := point.portfolio
  let prior := previous.portfolio
  let tradeDelta := current.closedTrades - prior.closedTrades
  ¬ (point.timeMs ≤ previous.timeMs ∨ current.symbol ≠ symbol ∨ current.equityQuote ≤ 0 ∨
    current.totalFeeQuote < prior.totalFeeQuote ∨
    current.totalSlippageQuote < prior.totalSlippageQuote ∨
    ¬ (tradeDelta = 0 ∨ tradeDelta = 1) ∨
    (tradeDelta = 0 ∧ ¬ current.realizedPnlQuote ≈ prior.realizedPnlQuote))

instance (symbol : Symbol) (previous point : EquityPoint) :
    Decidable (previous.Continues symbol point) := by
  unfold EquityPoint.Continues
  infer_instance

/-- The loop of `_validate_curve`. -/
def _validatePoints (symbol : Symbol) :
    EquityPoint → List EquityPoint → Except MetricsError Unit
  | _, [] => return
  | previous, point :: points => do
      raiseIf (¬ previous.Continues symbol point) ⟨"Equity curve lifecycle is inconsistent"⟩
      _validatePoints symbol point points

/-- A point without position, trades, results and costs. -/
def PortfolioSnapshot.Clean (s : PortfolioSnapshot) : Prop :=
  ¬ (¬ s.assetQuantity ≈ 0 ∨ s.equityQuote ≤ 0 ∨ s.closedTrades ≠ 0 ∨ ¬ s.realizedPnlQuote ≈ 0 ∨
    ¬ s.totalFeeQuote ≈ 0 ∨ ¬ s.totalSlippageQuote ≈ 0)

instance (s : PortfolioSnapshot) : Decidable s.Clean := by
  unfold PortfolioSnapshot.Clean
  infer_instance

def _validateCurve : List EquityPoint → Except MetricsError Unit
  | [] => .error ⟨"Equity curve must be a non-empty tuple"⟩
  | first :: points => do
      raiseIf (¬ first.portfolio.Clean) ⟨"Equity curve must begin at a clean flat portfolio"⟩
      _validatePoints first.portfolio.symbol first points
      raiseIf (¬ (points.getLastD first).portfolio.assetQuantity ≈ 0)
        ⟨"Final performance metrics require a flat portfolio"⟩

/-- The variables of the loop of `_calculate`. -/
structure CurveState where
  peak : Decimal
  maxDrawdownQuote : Decimal
  maxDrawdown : Decimal
  periodReturns : List Decimal
  tradePnls : List Decimal
  previous : PortfolioSnapshot

def CurveState.init (first : PortfolioSnapshot) : CurveState where
  peak := first.equityQuote
  maxDrawdownQuote := 0
  maxDrawdown := 0
  periodReturns := []
  tradePnls := []
  previous := first

/-- The body of the loop of `_calculate`. -/
def CurveState.next (c : CurveState) (point : PortfolioSnapshot) : CurveState :=
  let equity := point.equityQuote
  let change := sub decimalPrecision (quotient decimalPrecision equity c.previous.equityQuote) 1
  let peak := if c.peak < equity then equity else c.peak
  let drawdownQuote := sub decimalPrecision peak equity
  let drawdown := quotient decimalPrecision drawdownQuote peak
  let deeper := c.maxDrawdown < drawdown
  { peak := peak
    maxDrawdownQuote := if deeper then drawdownQuote else c.maxDrawdownQuote
    maxDrawdown := if deeper then drawdown else c.maxDrawdown
    periodReturns := c.periodReturns ++ [change]
    tradePnls :=
      if c.previous.closedTrades < point.closedTrades then
        c.tradePnls ++ [sub decimalPrecision point.realizedPnlQuote c.previous.realizedPnlQuote]
      else c.tradePnls
    previous := point }

/-- The statistics of the period returns. -/
structure ReturnStatistics where
  mean : Option Decimal := none
  volatility : Option Decimal := none
  downside : Option Decimal := none
  meanOverVolatility : Option Decimal := none
  meanOverDownside : Option Decimal := none

/-- A ratio to a deviation, which is left out when the deviation is zero. -/
def ratioTo (mean deviation : Decimal) : Option Decimal :=
  if deviation ≈ 0 then none else some (quotient decimalPrecision mean deviation)

def returnStatistics (returns : List Decimal) : ReturnStatistics :=
  if returns = [] then {} else
    let count := returns.length
    let mean := quotient decimalPrecision (sum decimalPrecision returns) (OfNat.ofNat count)
    let negativeSquares := (returns.filter fun value => value < 0).map (square decimalPrecision)
    let downside :=
      if negativeSquares = [] then none else
        some (sqrt decimalPrecision
          (quotient decimalPrecision (sum decimalPrecision negativeSquares) (OfNat.ofNat count)))
    let volatility :=
      if count < 2 then none else
        let squares := returns.map fun value =>
          square decimalPrecision (sub decimalPrecision value mean)
        some (sqrt decimalPrecision
          (quotient decimalPrecision (sum decimalPrecision squares) (OfNat.ofNat (count - 1))))
    { mean := mean
      volatility := volatility
      downside := downside
      meanOverVolatility := volatility.bind (ratioTo mean)
      meanOverDownside := downside.bind (ratioTo mean) }

variable {points : List EquityPoint}

/-- The values of a curve from its first point on. -/
def metricValues (first : PortfolioSnapshot) (points : List PortfolioSnapshot) :
    MetricValues Decimal :=
  let final := points.getLastD first
  let netPnl := sub decimalPrecision final.equityQuote first.equityQuote
  let totalCost := add decimalPrecision final.totalFeeQuote final.totalSlippageQuote
  let curve := points.foldl CurveState.next (.init first)
  let wins := curve.tradePnls.countP fun pnl => 0 < pnl
  let statistics := returnStatistics curve.periodReturns
  { initialEquityQuote := first.equityQuote
    finalEquityQuote := final.equityQuote
    totalReturn := quotient decimalPrecision netPnl first.equityQuote
    tradeCount := final.closedTrades
    winningTrades := wins
    losingTrades := curve.tradePnls.countP fun pnl => pnl < 0
    breakevenTrades := curve.tradePnls.countP fun pnl : Decimal => decide (pnl ≈ 0)
    winRate :=
      if final.closedTrades = 0 then none else
        some (quotient decimalPrecision (OfNat.ofNat wins) (ofInt final.closedTrades 0))
    grossPnlQuote := add decimalPrecision netPnl totalCost
    netPnlQuote := netPnl
    totalFeeQuote := final.totalFeeQuote
    totalSlippageQuote := final.totalSlippageQuote
    totalCostQuote := totalCost
    maximumDrawdownQuote := curve.maxDrawdownQuote
    maximumDrawdown := curve.maxDrawdown
    meanPeriodReturn := statistics.mean
    samplePeriodVolatility := statistics.volatility
    downsideDeviation := statistics.downside
    meanOverVolatility := statistics.meanOverVolatility
    meanOverDownside := statistics.meanOverDownside }

def _calculate (points : List EquityPoint) : Except MetricsError (MetricValues Decimal) := do
  _validateCurve points
  match points with
  | [] => .error ⟨"Equity curve must be a non-empty tuple"⟩
  | first :: points => return metricValues first.portfolio (points.map fun p => p.portfolio)

namespace PerformanceReport

structure Fields extends MetricValues Decimal where
  points : List EquityPoint
deriving DecidableEq

def Fields.postInit (r : Fields) : Except MetricsError Unit := do
  let expected ← _calculate r.points
  raiseIf (r.toMetricValues.map toRat ≠ expected.map toRat)
    ⟨"Performance report arithmetic is inconsistent"⟩

end PerformanceReport

structure PerformanceReport extends PerformanceReport.Fields where
  valid : toFields.postInit = .ok ()
deriving DecidableEq

namespace PerformanceReport

def build (f : Fields) : Except MetricsError PerformanceReport :=
  construct f.postInit fun h => ⟨f, h⟩

end PerformanceReport

def calculateMetrics (points : List EquityPoint) : Except MetricsError PerformanceReport := do
  let values ← _calculate points
  PerformanceReport.build ⟨values, points⟩

theorem _validatePoints_eq_ok {symbol : Symbol}
    {previous : EquityPoint} : _validatePoints symbol previous points = .ok () ↔
      (previous :: points).IsChain fun p q => p.Continues symbol q := by
  induction points generalizing previous with
  | nil => simp [_validatePoints, pure, Except.pure]
  | cons point points ih =>
    rw [_validatePoints, raiseIf_bind_eq_ok, not_not, ih, List.isChain_cons_cons]

theorem _calculate_eq_ok {values : MetricValues Decimal} :
    _calculate points = .ok values ↔ ∃ first rest, points = first :: rest ∧
      first.portfolio.Clean ∧
      (first :: rest).IsChain (fun p q => p.Continues first.portfolio.symbol q) ∧
      (rest.getLastD first).portfolio.assetQuantity ≈ 0 ∧
      values = metricValues first.portfolio (rest.map fun p => p.portfolio) := by
  unfold _calculate
  cases points with
  | nil => simp [_validateCurve, bind, Except.bind]
  | cons first rest =>
    unfold _validateCurve
    simp only [unit_bind_eq_ok, raiseIf_eq_ok, not_not, _validatePoints_eq_ok, pure, Except.pure,
      Except.ok.injEq, List.cons.injEq]
    constructor
    · rintro ⟨⟨hclean, hchain, hflat⟩, rfl⟩
      exact ⟨first, rest, ⟨rfl, rfl⟩, hclean, hchain, hflat, rfl⟩
    · rintro ⟨first', rest', ⟨rfl, rfl⟩, hclean, hchain, hflat, rfl⟩
      exact ⟨⟨hclean, hchain, hflat⟩, rfl⟩

/-- Whatever curve has values, the report about it can be built. -/
theorem calculateMetrics_eq_ok {report : PerformanceReport} :
    calculateMetrics points = .ok report ↔
      ∃ values, _calculate points = .ok values ∧ report.toFields = ⟨values, points⟩ := by
  unfold calculateMetrics
  rw [bind_eq_ok]
  constructor
  · rintro ⟨values, hvalues, h⟩
    obtain ⟨_, rfl⟩ := construct_eq_ok.mp h
    exact ⟨values, hvalues, rfl⟩
  · rintro ⟨values, hvalues, h⟩
    refine ⟨values, hvalues, ?_⟩
    have hvalid := report.valid
    rw [h] at hvalid
    refine construct_eq_ok.mpr ⟨hvalid, ?_⟩
    cases report
    cases h
    rfl

end TradingLab
