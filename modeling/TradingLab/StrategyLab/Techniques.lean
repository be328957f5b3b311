import TradingLab.StrategyLab.Cell

/-!
# The techniques of the fourth lab

Both candidates of the fourth lab have rules of their own beside those of the cells.
-/

/-!
## The momentum candidate

The momentum candidate of the fourth lab has rules of its own: it enters on a day's
return above the average while the strength is in a band, and leaves on a return
that is not positive. Its three features are measured like those of the candidates.
-/

namespace TradingLab

open Decimal

namespace Features

/-- The change from the first to the last of some candles, as a fraction. -/
def _change (visible : List Candle) : Decimal :=
  match visible.head?, visible.getLast? with
  | some first, some last =>
      sub decimalPrecision (quotient decimalPrecision (ofText last.close) (ofText first.close)) 1
  | _, _ => 0

def simpleReturn (candles : List Candle) (period : ℕ) (decisionTimeMs : ℤ) :
    Except FeatureError FeatureResult :=
  _feature "SIMPLE_RETURN" period (period + 1)
    (fun visible => _change (visible.rtake (period + 1))) candles decisionTimeMs

/-- The average after one more close. -/
def _weighted (period : ℕ) (current value : Decimal) : Decimal :=
  let alpha := quotient decimalPrecision 2 ⟨false, period + 1, 0⟩
  add decimalPrecision (mul decimalPrecision alpha value)
    (mul decimalPrecision (sub decimalPrecision 1 alpha) current)

def _exponentialAverage (period : ℕ) (visible : List Candle) : Decimal :=
  let values := visible.map fun c => ofText c.close
  (values.drop period).foldl (_weighted period) (_mean (values.take period) period)

def ema (candles : List Candle) (period : ℕ) (decisionTimeMs : ℤ) :
    Except FeatureError FeatureResult :=
  _feature "EMA" period period (_exponentialAverage period) candles decisionTimeMs

/-- The smoothed mean of some changes. -/
def _averageChange (period : ℕ) (changes : List Decimal) : Decimal :=
  (changes.drop period).foldl (_smoothed period) (_mean (changes.take period) period)

def _relativeStrength (period : ℕ) (visible : List Candle) : Decimal :=
  let closes := visible.map fun c => ofText c.close
  let changes := List.zipWith (fun previous current => sub decimalPrecision current previous)
    closes closes.tail
  let averageGain := _averageChange period (changes.map fun d => larger d 0)
  let averageLoss := _averageChange period (changes.map fun d => larger (neg decimalPrecision d) 0)
  if averageGain ≈ 0 ∧ averageLoss ≈ 0 then 50
  else if averageLoss ≈ 0 then 100
  else if averageGain ≈ 0 then 0
  else sub decimalPrecision 100 (quotient decimalPrecision 100
    (add decimalPrecision 1 (quotient decimalPrecision averageGain averageLoss)))

def rsi (candles : List Candle) (period : ℕ) (decisionTimeMs : ℤ) :
    Except FeatureError FeatureResult :=
  _feature "RSI" period (period + 1) (_relativeStrength period) candles decisionTimeMs

end Features

namespace StrategyLab

namespace Momentum

def entryReturnLookbackHours : ℕ := 24
def minimumEntryReturnFraction : Decimal := ofText "0.03"
def emaPeriodHours : ℕ := 24
def rsiPeriodHours : ℕ := 14
def minimumRsi : Decimal := ofText "55"
def maximumRsi : Decimal := ofText "75"
def atrPeriodHours : ℕ := 14
def stopAtrMultiple : Decimal := ofText "1.5"
def rewardRisk : Decimal := ofText "2"
def exitReturnLookbackHours : ℕ := 12
def exitReturnThresholdFraction : Decimal := ofText "0"

namespace MomentumDecision

structure Fields where
  ask : Ask
  reason : String
  entryReturn : Option String
  emaValue : Option String
  rsiValue : Option String
  atrValue : Option String
  exitReturn : Option String

def Fields.postInit (d : Fields) : Except CellError Unit :=
  raiseIf (d.reason = "") (.lab "HSL-004A momentum decision is inconsistent")

end MomentumDecision

/-- A decision of the candidate; only an entry has a setup. -/
structure MomentumDecision extends MomentumDecision.Fields where
  valid : toFields.postInit = .ok ()

def _featured (result : Except FeatureError FeatureResult) : Except CellError FeatureResult :=
  result.mapError fun _ => .lab "HSL-004A feature evaluation failed"

structure Measured where
  entryReturn : FeatureResult
  average : FeatureResult
  strength : FeatureResult
  volatility : FeatureResult
  exitReturn : FeatureResult

def _measured (primary : List Candle) (decisionTimeMs : ℤ) : Except CellError Measured := do
  let entryReturn ← _featured (Features.simpleReturn primary entryReturnLookbackHours decisionTimeMs)
  let average ← _featured (Features.ema primary emaPeriodHours decisionTimeMs)
  let strength ← _featured (Features.rsi primary rsiPeriodHours decisionTimeMs)
  let volatility ← _featured (Features.atr primary atrPeriodHours decisionTimeMs)
  let exitReturn ← _featured (Features.simpleReturn primary exitReturnLookbackHours decisionTimeMs)
  return { entryReturn, average, strength, volatility, exitReturn }

/-- A decision with the texts of its features. -/
def _decide (m : Measured) (ask : Ask) (reason : String) : Except CellError MomentumDecision :=
  let fields : MomentumDecision.Fields := {
    ask, reason
    entryReturn := m.entryReturn.value.map _plain
    emaValue := m.average.value.map _plain
    rsiValue := m.strength.value.map _plain
    atrValue := m.volatility.value.map _plain
    exitReturn := m.exitReturn.value.map _plain }
  construct fields.postInit fun h => ⟨fields, h⟩

/-- The decision for an open position. -/
def _held (m : Measured) : Except CellError MomentumDecision :=
  if h : m.exitReturn.available then
    if m.exitReturn.number h ≤ exitReturnThresholdFraction then
      _decide m .exit "MOMENTUM_REVERSAL_EXIT"
    else _decide m .hold "HOLD_MOMENTUM_POSITION"
  else _decide m .hold "INSUFFICIENT_EXIT_HISTORY"

def _levels (m : Measured) (close volatility : Decimal) : Except CellError MomentumDecision :=
  let invalidation := sub decimalPrecision close (mul decimalPrecision volatility stopAtrMultiple)
  let risk := sub decimalPrecision close invalidation
  let target := add decimalPrecision close (mul decimalPrecision risk rewardRisk)
  if invalidation ≤ 0 ∨ risk ≤ 0 then _decide m .hold "INVALID_PROTECTIVE_LEVELS"
  else do
    let setup ← (LongSetup.build {
      referencePrice := _plain close
      invalidationPrice := _plain invalidation
      targetPrice := _plain target }).mapError .contract
    _decide m (.enter setup) "MOMENTUM_ENTRY"

/-- The decision without a position. -/
def _flat (m : Measured) (close : Decimal) : Except CellError MomentumDecision :=
  if h : m.entryReturn.available ∧ m.average.available ∧ m.strength.available ∧
      m.volatility.available then
    let strength := m.strength.number h.2.2.1
    if m.entryReturn.number h.1 < minimumEntryReturnFraction then
      _decide m .hold "ENTRY_RETURN_BELOW_THRESHOLD"
    else if close ≤ m.average.number h.2.1 then _decide m .hold "PRICE_NOT_ABOVE_EMA"
    else if ¬ (minimumRsi ≤ strength ∧ strength ≤ maximumRsi) then
      _decide m .hold "RSI_OUTSIDE_ENTRY_BAND"
    else _levels m close (m.volatility.number h.2.2.2)
  else _decide m .hold "INSUFFICIENT_ENTRY_HISTORY"

def _evaluate (snapshot : Crisis.CrisisLabMarketSnapshot) (decisionTimeMs : ℤ)
    (inPosition : Bool) : Except CellError MomentumDecision := do
  let m ← _measured snapshot.primary decisionTimeMs
  if inPosition then _held m else _flat m (ofText snapshot.latestPrimary.close)

def _buyHoldReturn (analysisPrimary : List Candle) : Except CellError Decimal :=
  match analysisPrimary.head?, analysisPrimary.getLast? with
  | some first, some last => do
      let start := ofText first.open'
      let stop := ofText last.close
      raiseIf (start ≤ 0 ∨ stop ≤ 0) (.lab "HSL-004A benchmark price is invalid")
      return sub decimalPrecision (quotient decimalPrecision stop start) 1
  | _, _ => .error (.lab "HSL-004A benchmark has no analysis candles")

end Momentum

end StrategyLab

end TradingLab

/-!
## The volatility expansion candidate

The other candidate of the fourth lab enters on a close above the highest price of
the hours before, when the true range has grown against the one of two days. The
ranges of the baseline are measured in the default context.
-/

namespace TradingLab

open Decimal

namespace StrategyLab

namespace VolatilityExpansion

def atrPeriodHours : ℕ := 14
def atrBaselinePeriodHours : ℕ := 48
def minimumAtrExpansionRatio : Decimal := ofText "1.25"
def breakoutLookbackHours : ℕ := 20
def minimumCloseLocation : Decimal := ofText "0.75"
def maximumBreakoutExtensionAtr : Decimal := ofText "1"
def stopAtrMultiple : Decimal := ofText "1.25"
def rewardRisk : Decimal := ofText "2"
def exitAtrExpansionRatio : Decimal := ofText "1"

def _trueRange (previous current : Candle) : Decimal :=
  let high := ofText current.high
  let low := ofText current.low
  let prevClose := ofText previous.close
  larger (larger (sub defaultPrecision high low)
      (absolute defaultPrecision (sub defaultPrecision high prevClose)))
    (absolute defaultPrecision (sub defaultPrecision low prevClose))

/-- The ranges of the candles that are closed before the decision. -/
def _trueRanges (candles : List Candle) (decisionTimeMs : ℤ) : List Decimal :=
  let visible := candles.filter fun c => c.closeTimeMs < decisionTimeMs
  List.zipWith _trueRange visible visible.tail

def _atrBaseline (candles : List Candle) (period : ℕ) (decisionTimeMs : ℤ) : Option Decimal :=
  let ranges := _trueRanges candles decisionTimeMs
  if ranges.length < period then none
  else some (Features._mean (ranges.rtake period) period)

namespace VolatilityDecision

structure Fields where
  ask : Ask
  reason : String
  expansionRatio : Option String

def Fields.postInit (d : Fields) : Except CellError Unit :=
  raiseIf (d.reason = "") (.lab "HSL-004B decision is inconsistent")

end VolatilityDecision

/-- A decision of the candidate; only an entry has a setup. -/
structure VolatilityDecision extends VolatilityDecision.Fields where
  valid : toFields.postInit = .ok ()

def _featured (result : Except FeatureError FeatureResult) : Except CellError FeatureResult :=
  result.mapError fun _ => .lab "HSL-004B feature evaluation failed"

structure Measured where
  volatility : FeatureResult
  boundary : FeatureResult

def _measured (primary : List Candle) (decisionTimeMs : ℤ) : Except CellError Measured := do
  let volatility ← _featured (Features.atr primary atrPeriodHours decisionTimeMs)
  let boundary ← _featured
    (Features.rollingHigh primary.dropLast breakoutLookbackHours decisionTimeMs)
  return { volatility, boundary }

def _decide (ask : Ask) (reason : String) (ratio : Option Decimal) :
    Except CellError VolatilityDecision :=
  let fields : VolatilityDecision.Fields := ⟨ask, reason, ratio.map _plain⟩
  construct fields.postInit fun h => ⟨fields, h⟩

/-- The decision for an open position. -/
def _held (ratio : Decimal) : Except CellError VolatilityDecision :=
  if ratio ≤ exitAtrExpansionRatio then _decide .exit "VOLATILITY_NORMALIZED_EXIT" (some ratio)
  else _decide .hold "HOLD_VOLATILITY_POSITION" (some ratio)

def _closeLocation (close high low : Decimal) : Decimal :=
  let candleRange := sub defaultPrecision high low
  if 0 < candleRange then
    quotient decimalPrecision (sub decimalPrecision close low) candleRange
  else 0

/-- A close too far above the boundary; without a range it is infinitely far. -/
def _extended (close boundary volatility : Decimal) : Prop :=
  0 < volatility → maximumBreakoutExtensionAtr <
    quotient decimalPrecision (sub decimalPrecision close boundary) volatility

instance (close boundary volatility : Decimal) : Decidable (_extended close boundary volatility) :=
  inferInstanceAs (Decidable (_ → _))

def _levels (ratio close volatility : Decimal) : Except CellError VolatilityDecision :=
  let invalidation := sub decimalPrecision close (mul decimalPrecision volatility stopAtrMultiple)
  let risk := sub decimalPrecision close invalidation
  let target := add decimalPrecision close (mul decimalPrecision risk rewardRisk)
  if invalidation ≤ 0 ∨ risk ≤ 0 then _decide .hold "INVALID_PROTECTIVE_LEVELS" (some ratio)
  else do
    let setup ← (LongSetup.build {
      referencePrice := _plain close
      invalidationPrice := _plain invalidation
      targetPrice := _plain target }).mapError .contract
    _decide (.enter setup) "VOLATILITY_EXPANSION_ENTRY" (some ratio)

/-- The decision without a position. -/
def _flat (boundary : FeatureResult) (ratio volatility : Decimal) (latest : Candle) :
    Except CellError VolatilityDecision :=
  if h : boundary.available then
    let close := ofText latest.close
    if ratio < minimumAtrExpansionRatio then
      _decide .hold "ATR_EXPANSION_BELOW_THRESHOLD" (some ratio)
    else if close ≤ boundary.number h then _decide .hold "NO_BREAKOUT" (some ratio)
    else if _closeLocation close (ofText latest.high) (ofText latest.low) < minimumCloseLocation ∨
        _extended close (boundary.number h) volatility then
      _decide .hold "EXPANSION_QUALITY_FILTER" (some ratio)
    else _levels ratio close volatility
  else _decide .hold "INSUFFICIENT_HISTORY" (some ratio)

/-- The decision once the features are measured. -/
def _judged (m : Measured) (baseline : Option Decimal) (latest : Candle) (inPosition : Bool) :
    Except CellError VolatilityDecision :=
  match baseline with
  | none => _decide .hold "INSUFFICIENT_HISTORY" none
  | some baseline =>
      if h : m.volatility.available ∧ 0 < baseline then
        let volatility := m.volatility.number h.1
        let ratio := quotient decimalPrecision volatility baseline
        if inPosition then _held ratio else _flat m.boundary ratio volatility latest
      else _decide .hold "INSUFFICIENT_HISTORY" none

def _evaluate (snapshot : Crisis.CrisisLabMarketSnapshot) (decisionTimeMs : ℤ)
    (inPosition : Bool) : Except CellError VolatilityDecision := do
  let m ← _measured snapshot.primary decisionTimeMs
  let baseline := _atrBaseline snapshot.primary atrBaselinePeriodHours decisionTimeMs
  _judged m baseline snapshot.latestPrimary inPosition

end VolatilityExpansion

end StrategyLab

end TradingLab
