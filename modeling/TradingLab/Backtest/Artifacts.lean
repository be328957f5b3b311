import TradingLab.Backtest.Metrics

/-!
# Run manifests

A manifest pairs the fills of a run into trades and adds the trades up again. The
sums are taken from the texts of the trades and have to agree with the report.
-/

namespace TradingLab

open Decimal

def artifactKind : String := "YATL_SPOT_PAPER_BACKTEST"
def engineVersion : String := "P2.2"

structure ArtifactError where
  message : String
deriving Repr, DecidableEq

structure AcceptedBacktestDataset where
  spec : BacktestSpec
  manifestGeneratedAtMs : ℤ
  primary : List Candle
  context : List Candle
  regime : List Candle
deriving DecidableEq

namespace Artifact

def _spec (spec : BacktestSpec) : Json := .dict [
  ("symbol", .str spec.symbol.value),
  ("start_time_ms", .int spec.startTimeMs),
  ("end_time_ms", .int spec.endTimeMs),
  ("initial_cash", .str spec.initialCash),
  ("fee_bps", .str spec.feeBps),
  ("slippage_bps", .str spec.slippageBps),
  ("seed", .int spec.seed),
  ("paper_only", .bool spec.paperOnly),
  ("live_master_lock", .str spec.liveMasterLock),
  ("spot_only", .bool spec.spotOnly),
  ("allow_short", .bool spec.allowShort),
  ("allow_leverage", .bool spec.allowLeverage),
  ("execution_price_policy", .str spec.executionPricePolicy)]

/-- The record of one interval, whose candles are in order and without repetition. -/
def _interval (symbol : Symbol) (interval : Interval) (candles : List Candle) :
    Except ArtifactError Json := do
  let times := candles.map fun c => c.openTimeMs
  match candles with
  | [] => .error ⟨"Accepted dataset identity is inconsistent"⟩
  | first :: rest => do
      raiseIf ((∃ c ∈ candles, c.symbol ≠ symbol ∨ c.interval ≠ interval ∨ ¬ c.isClosed) ∨
          ¬ times.Pairwise (· ≤ ·) ∨ ¬ times.Nodup)
        ⟨"Accepted dataset identity is inconsistent"⟩
      return .dict [
        ("rows", .int candles.length),
        ("first_open_time_ms", .int first.openTimeMs),
        ("last_open_time_ms", .int (rest.getLastD first).openTimeMs),
        ("sha256", .str (Json.list (candles.map Candle.asRecord)).sha256)]

def _data (dataset : AcceptedBacktestDataset) : Except ArtifactError Json := do
  raiseIf (dataset.manifestGeneratedAtMs ≤ 0) ⟨"Accepted dataset timestamp is invalid"⟩
  let primary ← _interval dataset.spec.symbol .h1 dataset.primary
  let context ← _interval dataset.spec.symbol .m15 dataset.context
  let regime ← _interval dataset.spec.symbol .h4 dataset.regime
  return .dict [
    ("source", .str "BINANCE_SPOT_PUBLIC_CLOSED_OHLCV"),
    ("symbol", .str dataset.spec.symbol.value),
    ("manifest_generated_at_ms", .int dataset.manifestGeneratedAtMs),
    ("intervals", .dict [("1h", primary), ("15m", context), ("4h", regime)])]

def _fillInput (fill : CostedFill) : Json := .dict [
  ("action", .str fill.reference.action.value),
  ("decision_time_ms", .int fill.reference.decisionTimeMs),
  ("fill_time_ms", .int fill.reference.fillTimeMs),
  ("quantity", .str fill.reference.quantity),
  ("reference_price", .str fill.reference.referencePrice),
  ("reason", .str fill.reference.reason.value)]

structure Trade where
  entryTimeMs : ℤ
  exitTimeMs : ℤ
  quantity : String
  entryReferencePrice : String
  entryExecutionPrice : String
  exitReferencePrice : String
  exitExecutionPrice : String
  exitReason : String
  grossPnlQuote : String
  netPnlQuote : String
  feeQuote : String
  slippageQuote : String
deriving Repr, DecidableEq

def Trade.toRecord (t : Trade) : Json := .dict [
  ("entry_time_ms", .int t.entryTimeMs),
  ("exit_time_ms", .int t.exitTimeMs),
  ("quantity", .str t.quantity),
  ("entry_reference_price", .str t.entryReferencePrice),
  ("entry_execution_price", .str t.entryExecutionPrice),
  ("exit_reference_price", .str t.exitReferencePrice),
  ("exit_execution_price", .str t.exitExecutionPrice),
  ("exit_reason", .str t.exitReason),
  ("gross_pnl_quote", .str t.grossPnlQuote),
  ("net_pnl_quote", .str t.netPnlQuote),
  ("fee_quote", .str t.feeQuote),
  ("slippage_quote", .str t.slippageQuote)]

/-- The trade of an entry and its exit. -/
def Trade.of (entry fill : CostedFill) : Trade where
  entryTimeMs := entry.reference.fillTimeMs
  exitTimeMs := fill.reference.fillTimeMs
  quantity := entry.reference.quantity
  entryReferencePrice := entry.reference.referencePrice
  entryExecutionPrice := entry.executionPrice.fixed
  exitReferencePrice := fill.reference.referencePrice
  exitExecutionPrice := fill.executionPrice.fixed
  exitReason := fill.reference.reason.value
  grossPnlQuote := (mul decimalPrecision
    (sub decimalPrecision fill.reference.priceDecimal entry.reference.priceDecimal)
    entry.reference.quantityDecimal).fixed
  netPnlQuote := (add decimalPrecision entry.cashDelta fill.cashDelta).fixed
  feeQuote := (add decimalPrecision entry.feeQuote fill.feeQuote).fixed
  slippageQuote := (add decimalPrecision entry.slippageQuote fill.slippageQuote).fixed

/-- The loop of `_trades`: the trades, and the entry that is still open. -/
def _pair (symbol : Symbol) :
    Option CostedFill → List CostedFill → Except ArtifactError (List Trade × Option CostedFill)
  | entry, [] => return ([], entry)
  | entry, fill :: fills => do
      raiseIf (fill.reference.symbol ≠ symbol) ⟨"Artifact fill symbol is inconsistent"⟩
      if fill.reference.action = .enterLong then do
        raiseIf (entry.isSome) ⟨"Artifact contains overlapping entries"⟩
        _pair symbol (some fill) fills
      else
        match entry with
        | none => .error ⟨"Artifact trade lifecycle is inconsistent"⟩
        | some entry => do
            raiseIf (entry.reference.quantity ≠ fill.reference.quantity ∨
                fill.reference.fillTimeMs < entry.reference.fillTimeMs)
              ⟨"Artifact trade lifecycle is inconsistent"⟩
            let rest ← _pair symbol none fills
            return (.of entry fill :: rest.1, rest.2)

/-- The sum of one text of every trade. -/
def _total (field : Trade → String) (trades : List Trade) : Decimal :=
  sum decimalPrecision (trades.map fun t => ofText (field t))

def notReconciled : ArtifactError :=
  ⟨"Artifact trades do not reconcile with performance metrics"⟩

/-- The sums over the trades are the totals of the report. -/
def Reconciles (trades : List Trade) (report : PerformanceReport) : Prop :=
  _total Trade.grossPnlQuote trades ≈ report.grossPnlQuote ∧
    _total Trade.netPnlQuote trades ≈ report.netPnlQuote ∧
    _total Trade.feeQuote trades ≈ report.totalFeeQuote ∧
    _total Trade.slippageQuote trades ≈ report.totalSlippageQuote

instance (trades : List Trade) (report : PerformanceReport) :
    Decidable (Reconciles trades report) := by
  unfold Reconciles
  infer_instance

def _trades (symbol : Symbol) (fills : List CostedFill) (report : PerformanceReport) :
    Except ArtifactError (List Trade) := do
  let pairs ← _pair symbol none fills
  raiseIf (pairs.2.isSome ∨ (pairs.1.length : ℤ) ≠ report.tradeCount)
    ⟨"Artifact must contain only completed reported trades"⟩
  raiseIf (¬ Reconciles pairs.1 report) notReconciled
  return pairs.1

def _decimal (d : Decimal) : Json := .str d.fixed

def _metrics (report : PerformanceReport) : Json := .dict [
  ("initial_equity_quote", _decimal report.initialEquityQuote),
  ("final_equity_quote", _decimal report.finalEquityQuote),
  ("total_return", _decimal report.totalReturn),
  ("trade_count", .int report.tradeCount),
  ("winning_trades", .int report.winningTrades),
  ("losing_trades", .int report.losingTrades),
  ("breakeven_trades", .int report.breakevenTrades),
  ("win_rate", .ofOption _decimal report.winRate),
  ("gross_pnl_quote", _decimal report.grossPnlQuote),
  ("net_pnl_quote", _decimal report.netPnlQuote),
  ("total_fee_quote", _decimal report.totalFeeQuote),
  ("total_slippage_quote", _decimal report.totalSlippageQuote),
  ("total_cost_quote", _decimal report.totalCostQuote),
  ("maximum_drawdown_quote", _decimal report.maximumDrawdownQuote),
  ("maximum_drawdown", _decimal report.maximumDrawdown),
  ("mean_period_return", .ofOption _decimal report.meanPeriodReturn),
  ("sample_period_volatility", .ofOption _decimal report.samplePeriodVolatility),
  ("downside_deviation", .ofOption _decimal report.downsideDeviation),
  ("mean_over_volatility", .ofOption _decimal report.meanOverVolatility),
  ("mean_over_downside", .ofOption _decimal report.meanOverDownside)]

/-- The manifest without its own digest. -/
def _body (config data : Json) (trades : List Trade) (fills : List CostedFill)
    (first : EquityPoint) (points : List EquityPoint) (report : PerformanceReport) :
    List (String × Json) :=
  let inputMaterial := Json.dict [
    ("configuration", config), ("data", data), ("fill_inputs", .list (fills.map _fillInput))]
  let equities := points.map fun p => p.portfolio.equityQuote
  [("schema_version", .int 2),
    ("artifact_kind", .str artifactKind),
    ("engine_version", .str engineVersion),
    ("input_sha256", .str inputMaterial.sha256),
    ("configuration", config),
    ("data", data),
    ("trades", .list (trades.map Trade.toRecord)),
    ("equity_curve", .dict [
      ("points", .int (points.length + 1)),
      ("start_time_ms", .int first.timeMs),
      ("end_time_ms", .int (points.getLastD first).timeMs),
      ("initial_equity_quote", _decimal report.initialEquityQuote),
      ("final_equity_quote", _decimal report.finalEquityQuote),
      ("minimum_equity_quote", _decimal (equities.foldl smaller first.portfolio.equityQuote)),
      ("maximum_equity_quote", _decimal (equities.foldl larger first.portfolio.equityQuote))]),
    ("metrics", _metrics report)]

def buildRunManifest (dataset : AcceptedBacktestDataset) (fills : List CostedFill)
    (report : PerformanceReport) : Except ArtifactError Json :=
  match report.points with
  | [] => .error ⟨"Artifact inputs are inconsistent"⟩
  | first :: points => do
      raiseIf (dataset.spec.symbol ≠ first.portfolio.symbol) ⟨"Artifact inputs are inconsistent"⟩
      raiseIf (first.timeMs < dataset.spec.startTimeMs ∨
          dataset.spec.endTimeMs ≤ (points.getLastD first).timeMs ∨
          ∃ f ∈ fills, ¬ (dataset.spec.startTimeMs ≤ f.reference.fillTimeMs ∧
            f.reference.fillTimeMs < dataset.spec.endTimeMs))
        ⟨"Artifact lifecycle is outside the configured range"⟩
      let data ← _data dataset
      let trades ← _trades first.portfolio.symbol fills report
      let manifest := _body (_spec dataset.spec) data trades fills first points report
      return .dict (manifest ++ [("result_sha256", .str (Json.dict manifest).sha256)])

end Artifact

end TradingLab
