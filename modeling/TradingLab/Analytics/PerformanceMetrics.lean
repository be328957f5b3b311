import TradingLab.Analytics.Reconstruction
import TradingLab.Decimal.Quotient
import Mathlib.Data.List.Sort

/-!
# Metrics of a reconstruction

Every completed trade gives one metric, and the report adds the metrics up. A report
computes its aggregate again when it is built.
-/

namespace TradingLab

open Decimal

namespace Analytics

def maxCompletedTrades : ℕ := 4096

/-- The finite number of a text of any form. -/
def numberOf (fail : String → AnalyticsError) (value label : String) :
    Except AnalyticsError Decimal := do
  raiseIf (value = "") (fail (label ++ " is invalid"))
  match Numeral.ofString value with
  | some (.finite d) => .ok d
  | some _ => .error (fail (label ++ " is not finite"))
  | none => .error (fail (label ++ " is invalid"))

namespace PerformanceMetrics

def _decimal (value label : String) : Except AnalyticsError Decimal :=
  numberOf .performanceMetrics value label

def _format (value : Decimal) : String := value.fixed

namespace TradePerformanceMetric

structure Fields where
  tradeIndex : ℤ
  tradeSha256 : String
  realizedPnlQuote : String
  entryGrossQuote : String
  exitGrossQuote : String
  entryCashOutQuote : String
  grossReturn : String
  netReturn : String
  totalFeeQuote : String
  totalSlippageQuote : String
  holdingTimeMs : ℤ
deriving Repr, DecidableEq

def Fields.postInit (m : Fields) : Except AnalyticsError Unit := do
  raiseIf (m.tradeIndex < 0 ∨ ¬ Sha256.isHexDigest m.tradeSha256 ∨ m.holdingTimeMs < 0)
    (.performanceMetrics "Trade metric identity is invalid")
  let _ ← _decimal m.realizedPnlQuote "Trade realized PnL"
  let entryGross ← _decimal m.entryGrossQuote "Trade entry gross quote"
  let exitGross ← _decimal m.exitGrossQuote "Trade exit gross quote"
  let entryCashOut ← _decimal m.entryCashOutQuote "Trade entry cash out"
  let _ ← _decimal m.grossReturn "Trade gross return"
  let _ ← _decimal m.netReturn "Trade net return"
  let fee ← _decimal m.totalFeeQuote "Trade fee"
  let slippage ← _decimal m.totalSlippageQuote "Trade slippage"
  raiseIf (entryGross ≤ 0 ∨ exitGross ≤ 0 ∨ entryCashOut ≤ 0 ∨ fee < 0 ∨ slippage < 0)
    (.performanceMetrics "Trade metric costs are negative")

end TradePerformanceMetric

structure TradePerformanceMetric extends TradePerformanceMetric.Fields where
  valid : toFields.postInit = .ok ()
deriving DecidableEq

def TradePerformanceMetric.build (m : TradePerformanceMetric.Fields) :
    Except AnalyticsError TradePerformanceMetric :=
  construct m.postInit fun h => ⟨m, h⟩

def _tradeMetric (trade : CompletedPaperTrade) : Except AnalyticsError TradePerformanceMetric := do
  let entryGross ← _decimal trade.entry.grossQuote "Entry gross quote"
  let exitGross ← _decimal trade.exit.grossQuote "Exit gross quote"
  let entryCash ← _decimal trade.entry.cashDelta "Entry cash delta"
  let entryCashOut := neg decimalPrecision entryCash
  let realized ← _decimal trade.realizedPnlQuote "Trade realized PnL"
  raiseIf (entryGross ≤ 0 ∨ entryCashOut ≤ 0)
    (.performanceMetrics "Completed trade return denominator is invalid")
  let grossReturn :=
    quotient decimalPrecision (sub decimalPrecision exitGross entryGross) entryGross
  let netReturn := quotient decimalPrecision realized entryCashOut
  TradePerformanceMetric.build {
    tradeIndex := trade.tradeIndex
    tradeSha256 := trade.tradeSha256
    realizedPnlQuote := trade.realizedPnlQuote
    entryGrossQuote := trade.entry.grossQuote
    exitGrossQuote := trade.exit.grossQuote
    entryCashOutQuote := _format entryCashOut
    grossReturn := _format grossReturn
    netReturn := _format netReturn
    totalFeeQuote := trade.totalFeeQuote
    totalSlippageQuote := trade.totalSlippageQuote
    holdingTimeMs := trade.holdingTimeMs }

structure _AggregateValues where
  completedTradeCount : ℕ
  winningTrades : ℕ
  losingTrades : ℕ
  breakevenTrades : ℕ
  realizedPnlQuote : String
  grossPnlQuote : String
  totalFeeQuote : String
  totalSlippageQuote : String
  totalCostQuote : String
  grossReturn : Option String
  netReturn : Option String
  winRate : Option String
  maximumRealizedDrawdownQuote : String
  totalHoldingTimeMs : ℤ
  minimumHoldingTimeMs : Option ℤ
  maximumHoldingTimeMs : Option ℤ
  averageHoldingTimeMs : Option String
  bestTradePnlQuote : Option String
  worstTradePnlQuote : Option String
deriving Repr, DecidableEq

/-- The first of the greatest, or of the least, numbers. -/
def greatest : List Decimal → Option Decimal
  | [] => none
  | d :: ds => some (ds.foldl (fun a b => if a < b then b else a) d)

def least : List Decimal → Option Decimal
  | [] => none
  | d :: ds => some (ds.foldl (fun a b => if b < a then b else a) d)

structure DrawdownState where
  cumulative : Decimal
  peak : Decimal
  maximumDrawdown : Decimal

def DrawdownState.start : DrawdownState := ⟨0, 0, 0⟩

def DrawdownState.next (s : DrawdownState) (value : Decimal) : DrawdownState :=
  let cumulative := add decimalPrecision s.cumulative value
  let peak := if s.peak < cumulative then cumulative else s.peak
  let drawdown := sub decimalPrecision peak cumulative
  ⟨cumulative, peak, if s.maximumDrawdown < drawdown then drawdown else s.maximumDrawdown⟩

/-- The sums that are taken of a collection that is not empty. -/
structure Returns where
  grossPnl : Decimal
  grossReturn : Option String
  netReturn : Option String

def _returns (trades : List TradePerformanceMetric) (realized : Decimal) :
    Except AnalyticsError Returns := do
  if trades = [] then return ⟨0, none, none⟩
  else do
    let entries ← trades.mapM fun m => _decimal m.entryGrossQuote "Trade entry gross quote"
    let exits ← trades.mapM fun m => _decimal m.exitGrossQuote "Trade exit gross quote"
    let cashOuts ← trades.mapM fun m => _decimal m.entryCashOutQuote "Trade entry cash out"
    let grossEntry := sum decimalPrecision entries
    let grossExit := sum decimalPrecision exits
    let netEntryCash := sum decimalPrecision cashOuts
    raiseIf (grossEntry ≤ 0 ∨ netEntryCash ≤ 0)
      (.performanceMetrics "Aggregate return denominator is invalid")
    let grossPnl := sub decimalPrecision grossExit grossEntry
    return ⟨grossPnl, some (_format (quotient decimalPrecision grossPnl grossEntry)),
      some (_format (quotient decimalPrecision realized netEntryCash))⟩

def _aggregate (trades : List TradePerformanceMetric) :
    Except AnalyticsError _AggregateValues := do
  raiseIf (maxCompletedTrades < trades.length)
    (.performanceMetrics "Completed trade metric collection is invalid")
  let realizedValues ← trades.mapM fun m => _decimal m.realizedPnlQuote "Trade realized PnL"
  let feeValues ← trades.mapM fun m => _decimal m.totalFeeQuote "Trade fee"
  let slippageValues ← trades.mapM fun m => _decimal m.totalSlippageQuote "Trade slippage"
  let realized := sum decimalPrecision realizedValues
  let fees := sum decimalPrecision feeValues
  let slippage := sum decimalPrecision slippageValues
  let wins := realizedValues.countP fun value => 0 < value
  let returns ← _returns trades realized
  let holdings := trades.map fun m => m.holdingTimeMs
  let count := trades.length
  return {
    completedTradeCount := count
    winningTrades := wins
    losingTrades := realizedValues.countP fun value => value < 0
    breakevenTrades := realizedValues.countP fun value : Decimal => decide (value ≈ 0)
    realizedPnlQuote := _format realized
    grossPnlQuote := _format returns.grossPnl
    totalFeeQuote := _format fees
    totalSlippageQuote := _format slippage
    totalCostQuote := _format (add decimalPrecision fees slippage)
    grossReturn := returns.grossReturn
    netReturn := returns.netReturn
    winRate :=
      if trades = [] then none
      else some (_format (quotient decimalPrecision (OfNat.ofNat wins) (OfNat.ofNat count)))
    maximumRealizedDrawdownQuote :=
      _format (realizedValues.foldl DrawdownState.next .start).maximumDrawdown
    totalHoldingTimeMs := holdings.sum
    minimumHoldingTimeMs := holdings.min?
    maximumHoldingTimeMs := holdings.max?
    averageHoldingTimeMs :=
      if trades = [] then none
      else some (_format (quotient decimalPrecision (ofInt holdings.sum 0) (OfNat.ofNat count)))
    bestTradePnlQuote := (greatest realizedValues).map _format
    worstTradePnlQuote := (least realizedValues).map _format }

inductive PerformanceMetricsStatus where
  | insufficientData
  | descriptive
deriving Repr, DecidableEq

def statusOf (trades : List TradePerformanceMetric) : PerformanceMetricsStatus :=
  if trades = [] then .insufficientData else .descriptive

namespace PerformanceMetricsReport

structure Fields where
  reconstructionSha256 : String
  timelineSha256 : String
  symbol : Symbol
  status : PerformanceMetricsStatus
  openTradePresent : Bool
  trades : List TradePerformanceMetric
  values : _AggregateValues
deriving DecidableEq

def Fields.postInit (r : Fields) : Except AnalyticsError Unit := do
  raiseIf (¬ Sha256.isHexDigest r.reconstructionSha256 ∨ ¬ Sha256.isHexDigest r.timelineSha256 ∨
      maxCompletedTrades < r.trades.length)
    (.performanceMetrics "Performance metrics report identity is invalid")
  raiseIf (r.trades.map (·.tradeIndex) ≠ (List.range r.trades.length).map Int.ofNat)
    (.performanceMetrics "Trade metric indexes are noncanonical")
  raiseIf (¬ (r.trades.map (·.tradeSha256)).Nodup)
    (.performanceMetrics "Trade metrics contain duplicate identities")
  let expected ← _aggregate r.trades
  raiseIf (r.values ≠ expected)
    (.performanceMetrics "Performance metrics arithmetic is inconsistent")
  raiseIf (r.status ≠ statusOf r.trades)
    (.performanceMetrics "Performance metrics status is inconsistent")

end PerformanceMetricsReport

structure PerformanceMetricsReport extends PerformanceMetricsReport.Fields where
  valid : toFields.postInit = .ok ()
deriving DecidableEq

def PerformanceMetricsReport.build (r : PerformanceMetricsReport.Fields) :
    Except AnalyticsError PerformanceMetricsReport :=
  construct r.postInit fun h => ⟨r, h⟩

def calculatePerformanceMetrics (reconstruction : PaperTradeReconstruction) :
    Except AnalyticsError PerformanceMetricsReport := do
  raiseIf (maxCompletedTrades < reconstruction.completed.length)
    (.performanceMetrics "Completed trade count exceeds analytics bound")
  let trades ← reconstruction.completed.mapM _tradeMetric
  let values ← _aggregate trades
  PerformanceMetricsReport.build {
    reconstructionSha256 := reconstruction.reconstructionSha256
    timelineSha256 := reconstruction.timelineSha256
    symbol := reconstruction.symbol
    status := statusOf trades
    openTradePresent := reconstruction.openTrade.isSome
    trades
    values }

end PerformanceMetrics

end Analytics

end TradingLab

/-!
## Segments of the completed trades

The records of a population are put into buckets by a value of theirs, and each bucket
gives one segment, in the order of the values. A segment adds its members up again, in
the order of their identities.
-/

namespace TradingLab

open Decimal

namespace Analytics

namespace Segmentation

open PerformanceMetrics (TradePerformanceMetric PerformanceMetricsReport)

def maxSegmentMembers : ℕ := 4096
def unattributedStrategyIdentity : String := "UNATTRIBUTED_DURABLE_P5"

inductive SegmentDimension where
  | symbol
  | strategyIdentity
  | evidenceLabel
  | analystDisposition
  | groundingCode
  | traceAcceptance
deriving Repr, DecidableEq

def tradeDimensions : List SegmentDimension := [.symbol, .strategyIdentity, .evidenceLabel]

def _decimal (value label : String) : Except AnalyticsError Decimal :=
  numberOf .segmentation value label

def _format (value : Decimal) : String := value.fixed

namespace TradeSegment

structure Fields where
  dimension : SegmentDimension
  value : String
  memberTradeSha256 : List String
  memberCount : ℕ
  realizedPnlQuote : String
  totalCostQuote : String
  winningTrades : ℕ
  losingTrades : ℕ
  breakevenTrades : ℕ
deriving Repr, DecidableEq

def Fields.postInit (s : Fields) : Except AnalyticsError Unit := do
  raiseIf (s.dimension ∉ tradeDimensions ∨ s.value = "" ∨
      maxSegmentMembers < s.memberTradeSha256.length ∨
      s.memberTradeSha256.insertionSort (· ≤ ·) ≠ s.memberTradeSha256 ∨
      ¬ s.memberTradeSha256.Nodup ∨ s.memberCount ≠ s.memberTradeSha256.length)
    (.segmentation "Trade segment identity is invalid")
  raiseIf (∃ sha ∈ s.memberTradeSha256, ¬ Sha256.isHexDigest sha)
    (.segmentation "Trade segment member digest is invalid")
  let _ ← _decimal s.realizedPnlQuote "Segment realized PnL"
  let cost ← _decimal s.totalCostQuote "Segment total cost"
  raiseIf (cost < 0) (.segmentation "Trade segment cost is negative")
  raiseIf (s.winningTrades + s.losingTrades + s.breakevenTrades ≠ s.memberCount)
    (.segmentation "Trade segment outcome counts do not conserve")

end TradeSegment

structure TradeSegment extends TradeSegment.Fields where
  valid : toFields.postInit = .ok ()
deriving DecidableEq

def TradeSegment.build (s : TradeSegment.Fields) : Except AnalyticsError TradeSegment :=
  construct s.postInit fun h => ⟨s, h⟩

def _tradeSegment (dimension : SegmentDimension) (value : String)
    (members : List TradePerformanceMetric) : Except AnalyticsError TradeSegment := do
  let ordered := members.insertionSort fun a b => a.tradeSha256 ≤ b.tradeSha256
  let realizedValues ← ordered.mapM fun m => _decimal m.realizedPnlQuote "Trade realized PnL"
  let costs ← ordered.mapM fun m => do
    let fee ← _decimal m.totalFeeQuote "Trade fee"
    let slippage ← _decimal m.totalSlippageQuote "Trade slippage"
    return add decimalPrecision fee slippage
  TradeSegment.build {
    dimension
    value
    memberTradeSha256 := ordered.map fun m => m.tradeSha256
    memberCount := ordered.length
    realizedPnlQuote := _format (sum decimalPrecision realizedValues)
    totalCostQuote := _format (sum decimalPrecision costs)
    winningTrades := realizedValues.countP fun value => 0 < value
    losingTrades := realizedValues.countP fun value => value < 0
    breakevenTrades := realizedValues.countP fun value : Decimal => decide (value ≈ 0) }

def _emptyValue : SegmentDimension → String
  | .symbol => "NO_COMPLETED_TRADES"
  | .strategyIdentity => unattributedStrategyIdentity
  | .evidenceLabel => insufficientEvidence
  | .analystDisposition => "NO_ANALYST_TRACES"
  | .groundingCode => "NO_ANALYST_TRACES"
  | .traceAcceptance => "NO_ANALYST_TRACES"

/-- The values of the records in their order, each once. -/
def bucketValues {ρ : Type} (records : List ρ) (valueFn : ρ → String) : List String :=
  (records.map valueFn).dedup.insertionSort (· ≤ ·)

def _groupRecords {ρ σ : Type} (records : List ρ) (dimension : SegmentDimension)
    (valueFn : ρ → String)
    (segmentBuilder : SegmentDimension → String → List ρ → Except AnalyticsError σ) :
    Except AnalyticsError (List σ) := do
  raiseIf (∃ item ∈ records, valueFn item = "")
    (.segmentation "Segment dimension value is invalid")
  if records = [] then
    let segment ← segmentBuilder dimension (_emptyValue dimension) []
    return [segment]
  else
    (bucketValues records valueFn).mapM fun value =>
      segmentBuilder dimension value (records.filter fun item => valueFn item = value)

/-- The value of a trade in a dimension of the trades. -/
def tradeValue (metrics : PerformanceMetricsReport) (dimension : SegmentDimension) :
    TradePerformanceMetric → String :=
  match dimension with
  | .symbol => fun _ => metrics.symbol.value
  | .strategyIdentity => fun _ => unattributedStrategyIdentity
  | _ => fun _ => insufficientEvidence

/-- The segments of a report in a dimension. -/
def tradeSegments (metrics : PerformanceMetricsReport) (dimension : SegmentDimension) :
    Except AnalyticsError (List TradeSegment) :=
  _groupRecords metrics.trades dimension (tradeValue metrics dimension) _tradeSegment

end Segmentation

end Analytics

end TradingLab
