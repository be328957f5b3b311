import TradingLab.Strategy.Evaluation

/-!
# The two candidates

Both enter in an upward trend only, with a confirmation on the context interval, and
leave when the close falls to the stop.
-/

/-!
## The trend-pullback candidate

In an upward trend it enters when the latest candle dipped to its average and
closed above it, with a confirmation on the context interval. The position is
left when the close falls to the stop or below the average, or the trend ends.
-/

namespace TradingLab

open Decimal Evaluation

namespace Trend

def label : String := "Trend-pullback"
def primarySmaPeriod : ℕ := 20
def pullbackLookback : ℕ := 3

/-- The stop of an entry lies below the recent low. -/
def _levels (context : StrategyContext) (close : Decimal) :
    Except EvaluatorError StrategyDecision := do
  let failed := label ++ " level evaluation failed"
  let volatility ← _featureOf failed
    (Features.atr context.snapshot.primary atrPeriod context.decisionTimeMs)
  let recentLow ← _featureOf failed
    (Features.rollingLow context.snapshot.primary pullbackLookback context.decisionTimeMs)
  if h : volatility.available ∧ recentLow.available then
    _enter context .trendPullbackEntry close (recentLow.number h.2) (volatility.number h.1)
  else _noTrade context .insufficientHistory

/-- The decision without a position. -/
def _search (context : StrategyContext) (regime : MarketRegime) (average close : Decimal) :
    Except EvaluatorError StrategyDecision :=
  if regime = .unknown then _noTrade context .regimeUnknown
  else if regime ≠ .trendUp then _noTrade context .regimeBlocked
  else if average < ofText context.snapshot.latestPrimary.low ∨ close ≤ average then
    _noTrade context .setupAbsent
  else if ¬ _confirmed context.snapshot.context then _noTrade context .confirmationFailed
  else _levels context close

/-- The decision for an open position. -/
def _hold (context : StrategyContext) (setup : LongSetup) (regime : MarketRegime)
    (average close : Decimal) : Except EvaluatorError StrategyDecision :=
  if close ≤ ofText setup.invalidationPrice ∨ regime ≠ .trendUp ∨ close < average then
    _exit context
  else _noTrade context .holdPosition

end Trend

open Trend in
def evaluateTrendPullback (context : StrategyContext) (inPosition : Bool)
    (activeSetup : Option LongSetup) : Except EvaluatorError StrategyDecision := do
  let position ← _validated trendPullbackIdentity label context inPosition activeSetup
  let regime ← _regime label context
  let average ← _featureOf (label ++ " feature evaluation failed")
    (Features.sma context.snapshot.primary primarySmaPeriod context.decisionTimeMs)
  if h : average.available ∧ regime.reason ≠ .insufficientHistory ∧
      2 ≤ context.snapshot.context.length then
    let close := ofText context.snapshot.latestPrimary.close
    match position with
    | some setup => _hold context setup regime.regime (average.number h.1) close
    | none => _search context regime.regime (average.number h.1) close
  else _noTrade context .insufficientHistory

namespace Trend
variable {context : StrategyContext} {regime : MarketRegime} {average close : Decimal}
  {d : StrategyDecision} {setup : LongSetup} {inPosition : Bool} {activeSetup : Option LongSetup}

theorem levels_eq_ok (h : _levels context close = .ok d) : Fresh context d := by
  unfold _levels at h
  obtain ⟨volatility, -, h⟩ := bind_eq_ok.mp h
  obtain ⟨recentLow, -, h⟩ := bind_eq_ok.mp h
  split at h
  · exact enter_eq_ok h
  · exact fresh_of_noTrade h (by decide)

theorem search_eq_ok (h : _search context regime average close = .ok d) : Fresh context d := by
  unfold _search at h
  split at h
  · exact fresh_of_noTrade h (by decide)
  split at h
  · exact fresh_of_noTrade h (by decide)
  split at h
  · exact fresh_of_noTrade h (by decide)
  split at h
  · exact fresh_of_noTrade h (by decide)
  · exact levels_eq_ok h

theorem hold_eq_ok (h : _hold context setup regime average close = .ok d) :
    Evaluation.Held context d := by
  unfold _hold at h
  split at h
  · exact ⟨(exit_eq_ok h).1, .inl (exit_eq_ok h).2⟩
  · exact ⟨(noTrade_eq_ok h).1, .inr (noTrade_eq_ok h).2⟩

theorem returned (h : evaluateTrendPullback context inPosition activeSetup = .ok d) :
    context.identity = trendPullbackIdentity ∧ Returned primarySmaPeriod context inPosition d := by
  unfold evaluateTrendPullback at h
  obtain ⟨position, hposition, h⟩ := bind_eq_ok.mp h
  obtain ⟨regime, hregime, h⟩ := bind_eq_ok.mp h
  obtain ⟨average, haverage, h⟩ := bind_eq_ok.mp h
  obtain ⟨hidentity, hheld⟩ := validated_eq_ok hposition
  refine ⟨hidentity, ?_⟩
  have henough : Enough primarySmaPeriod context ↔ average.available ∧
      regime.reason ≠ .insufficientHistory ∧ 2 ≤ context.snapshot.context.length := by
    rw [available_iff (fun c hc => hc) haverage, Ne, regime_eq_ok hregime, not_lt]
    exact ⟨fun e => ⟨e.primary, e.regime, e.confirmation⟩, fun ⟨p, r, c⟩ => ⟨r, p, c⟩⟩
  exact returned_of_ready h henough hheld (fun _ _ => hold_eq_ok) fun _ => search_eq_ok

end Trend

end TradingLab

/-!
## The range-breakout candidate

In an upward trend it enters when the latest candle closed above the highest
price before it, near its own high and not too far above the boundary, with a
confirmation on the context interval. The position is left when the close falls
to the stop or to the boundary, or the trend ends. The features leave the latest
candle out.
-/

namespace TradingLab

open Decimal Evaluation

namespace Breakout

def label : String := "Breakout"
def breakoutLookback : ℕ := 20
def maximumExtensionAtr : Decimal := ofText "1"
def minimumCloseLocation : Decimal := ofText "0.75"

/-- Where the close lies between the low and the high of a candle. -/
def _closeLocation (high low close : Decimal) : Decimal :=
  let candleRange := sub defaultPrecision high low
  if 0 < candleRange then quotient decimalPrecision (sub decimalPrecision close low) candleRange
  else 0

/-- How far the close lies above the boundary; nothing stands for infinity. -/
def _extensionAtr (close boundary volatility : Decimal) : Option Decimal :=
  if 0 < volatility then
    some (quotient decimalPrecision (sub decimalPrecision close boundary) volatility)
  else none

/-- The decision without a position. -/
def _search (context : StrategyContext) (regime : MarketRegime)
    (boundary volatility close : Decimal) : Except EvaluatorError StrategyDecision :=
  if regime = .unknown then _noTrade context .regimeUnknown
  else if regime ≠ .trendUp then _noTrade context .regimeBlocked
  else if close ≤ boundary then _noTrade context .setupAbsent
  else
    let high := ofText context.snapshot.latestPrimary.high
    let low := ofText context.snapshot.latestPrimary.low
    if _closeLocation high low close < minimumCloseLocation ∨
        (_extensionAtr close boundary volatility).all (maximumExtensionAtr < ·) then
      _noTrade context .setupAbsent
    else if ¬ _confirmed context.snapshot.context then _noTrade context .confirmationFailed
    else _enter context .breakoutEntry close low volatility

/-- The decision for an open position. -/
def _hold (context : StrategyContext) (setup : LongSetup) (regime : MarketRegime)
    (boundary close : Decimal) : Except EvaluatorError StrategyDecision :=
  if close ≤ ofText setup.invalidationPrice ∨ regime ≠ .trendUp ∨ close ≤ boundary then
    _exit context
  else _noTrade context .holdPosition

end Breakout

open Breakout in
def evaluateBreakout (context : StrategyContext) (inPosition : Bool)
    (activeSetup : Option LongSetup) : Except EvaluatorError StrategyDecision := do
  let position ← _validated breakoutIdentity label context inPosition activeSetup
  let earlier := context.snapshot.primary.dropLast
  let failed := label ++ " feature evaluation failed"
  let regime ← _regime label context
  let boundary ← _featureOf failed
    (Features.rollingHigh earlier breakoutLookback context.decisionTimeMs)
  let volatility ← _featureOf failed (Features.atr earlier atrPeriod context.decisionTimeMs)
  if h : (boundary.available ∧ volatility.available) ∧ regime.reason ≠ .insufficientHistory ∧
      2 ≤ context.snapshot.context.length then
    let close := ofText context.snapshot.latestPrimary.close
    match position with
    | some setup => _hold context setup regime.regime (boundary.number h.1.1) close
    | none =>
        _search context regime.regime (boundary.number h.1.1) (volatility.number h.1.2) close
  else _noTrade context .insufficientHistory

namespace Breakout
variable {context : StrategyContext} {regime : MarketRegime} {boundary volatility close : Decimal}
  {d : StrategyDecision} {setup : LongSetup} {inPosition : Bool} {activeSetup : Option LongSetup}

theorem search_eq_ok (h : _search context regime boundary volatility close = .ok d) :
    Fresh context d := by
  unfold _search at h
  split at h
  · exact fresh_of_noTrade h (by decide)
  split at h
  · exact fresh_of_noTrade h (by decide)
  split at h
  · exact fresh_of_noTrade h (by decide)
  dsimp only at h
  split at h
  · exact fresh_of_noTrade h (by decide)
  split at h
  · exact fresh_of_noTrade h (by decide)
  · exact enter_eq_ok h

theorem hold_eq_ok (h : _hold context setup regime boundary close = .ok d) :
    Evaluation.Held context d := by
  unfold _hold at h
  split at h
  · exact ⟨(exit_eq_ok h).1, .inl (exit_eq_ok h).2⟩
  · exact ⟨(noTrade_eq_ok h).1, .inr (noTrade_eq_ok h).2⟩

def warmup : ℕ := breakoutLookback + 1

theorem returned (h : evaluateBreakout context inPosition activeSetup = .ok d) :
    context.identity = breakoutIdentity ∧ Returned warmup context inPosition d := by
  unfold evaluateBreakout at h
  obtain ⟨position, hposition, h⟩ := bind_eq_ok.mp h
  obtain ⟨regime, hregime, h⟩ := bind_eq_ok.mp h
  obtain ⟨boundary, hboundary, h⟩ := bind_eq_ok.mp h
  obtain ⟨volatility, hvolatility, h⟩ := bind_eq_ok.mp h
  obtain ⟨hidentity, hheld⟩ := validated_eq_ok hposition
  refine ⟨hidentity, ?_⟩
  have hsub : ∀ c ∈ context.snapshot.primary.dropLast, c ∈ context.snapshot.primary :=
    fun c hc => List.dropLast_subset _ hc
  have henough : Enough warmup context ↔ (boundary.available ∧ volatility.available) ∧
      regime.reason ≠ .insufficientHistory ∧ 2 ≤ context.snapshot.context.length := by
    rw [available_iff hsub hboundary, available_iff hsub hvolatility, Ne, regime_eq_ok hregime,
      not_lt, List.length_dropLast]
    have hlookback : breakoutLookback = 20 := rfl
    have hatr : atrPeriod = 14 := rfl
    have hwarmup : warmup = 21 := rfl
    constructor
    · intro e
      have hprimary := e.primary
      exact ⟨by omega, e.regime, e.confirmation⟩
    · rintro ⟨hprimary, hlong, hconfirmation⟩
      exact ⟨hlong, by omega, hconfirmation⟩
  exact returned_of_ready h henough hheld (fun _ _ => hold_eq_ok) fun _ => search_eq_ok

end Breakout

end TradingLab
