import TradingLab.Backtest.Costs
import TradingLab.Decimal.Format
import TradingLab.Decimal.Sum

/-!
# Features of closed candles

A feature looks at the candles that are closed before the decision and measures
the last ones, or says that there are too few. The candles have to follow one
another on one market.
-/

namespace TradingLab

open Decimal

def maxFeatureCandles : ℕ := 100000
def maxFeaturePeriod : ℕ := 10000

structure FeatureError where
  message : String
deriving Repr, DecidableEq

inductive FeatureState where
  | ready
  | insufficientHistory
deriving Repr, DecidableEq

def FeatureState.value : FeatureState → String
  | ready => "READY"
  | insufficientHistory => "INSUFFICIENT_HISTORY"

namespace FeatureResult

structure Fields where
  name : String
  period : ℕ
  decisionTimeMs : ℤ
  observed : ℕ
  warmupRequired : ℕ
  state : FeatureState
  value : Option Decimal
deriving Repr, DecidableEq

def Fields.postInit (f : Fields) : Except FeatureError Unit :=
  raiseIf (f.name = "" ∨ f.period = 0 ∨ f.decisionTimeMs ≤ 0 ∨ f.warmupRequired = 0 ∨
      (f.state = .ready ∧ (f.value = none ∨ f.observed < f.warmupRequired)) ∨
      (f.state = .insufficientHistory ∧ (f.value ≠ none ∨ f.warmupRequired ≤ f.observed)))
    ⟨"Feature result is inconsistent"⟩

end FeatureResult

structure FeatureResult extends FeatureResult.Fields where
  valid : toFields.postInit = .ok ()
deriving DecidableEq

namespace FeatureResult

def build (f : Fields) : Except FeatureError FeatureResult :=
  construct f.postInit fun h => ⟨f, h⟩

def available (r : FeatureResult) : Prop := r.state = .ready

instance (r : FeatureResult) : Decidable r.available := by
  unfold available
  infer_instance

theorem ready_iff (r : FeatureResult) :
    (r.available ↔ r.value.isSome) ∧ (r.available ↔ r.warmupRequired ≤ r.observed) := by
  have h := r.valid
  unfold Fields.postInit at h
  rw [raiseIf_eq_ok] at h
  unfold available
  cases hs : r.state with
  | ready =>
    simp only [hs, true_and, not_or, not_lt] at h
    simp [Option.isSome_iff_ne_none, h.2.2.2.2.1]
  | insufficientHistory =>
    simp only [hs, true_and, not_or, not_le, not_not] at h
    simp [h.2.2.2.2.2]

def number (r : FeatureResult) (h : r.available) : Decimal := r.value.get (r.ready_iff.1.mp h)

end FeatureResult

namespace Features

def _period (value : ℕ) : Except FeatureError ℕ := do
  raiseIf (¬ (1 ≤ value ∧ value ≤ maxFeaturePeriod)) ⟨"Feature period is invalid"⟩
  return value

/-- The candles belong to the market of the first one and follow one another. -/
def _series (first : Candle) : Option ℤ → List Candle → Except FeatureError Unit
  | _, [] => return
  | previous, candle :: candles => do
      raiseIf (candle.symbol ≠ first.symbol ∨ candle.interval ≠ first.interval ∨
          ¬ candle.isClosed ∨
          (previous.any fun open' => candle.openTimeMs ≠ open' + first.interval.milliseconds))
        ⟨"Feature candle series is inconsistent"⟩
      _series first (some candle.openTimeMs) candles

def _visible (candles : List Candle) (decisionTimeMs : ℤ) : Except FeatureError (List Candle) := do
  raiseIf (maxFeatureCandles < candles.length ∨ decisionTimeMs ≤ 0)
    ⟨"Feature input identity is invalid"⟩
  match candles.filter fun c => c.closeTimeMs < decisionTimeMs with
  | [] => return []
  | first :: rest => do
      _series first none (first :: rest)
      return first :: rest

/-- A measure of the visible candles, once there are as many as it requires. -/
def _result (name : String) (period : ℕ) (decisionTimeMs : ℤ) (visible : List Candle)
    (required : ℕ) (measure : List Candle → Decimal) : Except FeatureError FeatureResult :=
  if visible.length < required then FeatureResult.build {
    name, period, decisionTimeMs
    observed := visible.length
    warmupRequired := required
    state := .insufficientHistory
    value := none }
  else FeatureResult.build {
    name, period, decisionTimeMs
    observed := visible.length
    warmupRequired := required
    state := .ready
    value := some (measure visible) }

def _feature (name : String) (period required : ℕ) (measure : List Candle → Decimal)
    (candles : List Candle) (decisionTimeMs : ℤ) : Except FeatureError FeatureResult := do
  let period ← _period period
  let visible ← _visible candles decisionTimeMs
  _result name period decisionTimeMs visible required measure

/-- `max` of some numbers, the first one on a tie. -/
def maximum : List Decimal → Decimal
  | [] => 0
  | d :: ds => ds.foldl larger d

/-- `min` of some numbers, the first one on a tie. -/
def minimum : List Decimal → Decimal
  | [] => 0
  | d :: ds => ds.foldl smaller d

/-- The sum of some numbers over a period. -/
def _mean (ds : List Decimal) (period : ℕ) : Decimal :=
  quotient decimalPrecision (sum decimalPrecision ds) ⟨false, period, 0⟩

def rollingHigh (candles : List Candle) (period : ℕ) (decisionTimeMs : ℤ) :
    Except FeatureError FeatureResult :=
  _feature "ROLLING_HIGH" period period
    (fun visible => maximum ((visible.rtake period).map fun c => ofText c.high))
    candles decisionTimeMs

def rollingLow (candles : List Candle) (period : ℕ) (decisionTimeMs : ℤ) :
    Except FeatureError FeatureResult :=
  _feature "ROLLING_LOW" period period
    (fun visible => minimum ((visible.rtake period).map fun c => ofText c.low))
    candles decisionTimeMs

def sma (candles : List Candle) (period : ℕ) (decisionTimeMs : ℤ) :
    Except FeatureError FeatureResult :=
  _feature "SMA" period period
    (fun visible => _mean ((visible.rtake period).map fun c => ofText c.close) period)
    candles decisionTimeMs

/-- The true range of a candle after the one before it. -/
def _trueRange (previous current : Candle) : Decimal :=
  let high := ofText current.high
  let low := ofText current.low
  let priorClose := ofText previous.close
  larger (larger (sub decimalPrecision high low)
      (absolute decimalPrecision (sub decimalPrecision high priorClose)))
    (absolute decimalPrecision (sub decimalPrecision low priorClose))

/-- The smoothed mean after one more range. -/
def _smoothed (period : ℕ) (current value : Decimal) : Decimal :=
  quotient decimalPrecision
    (add decimalPrecision (mul decimalPrecision current ⟨false, period - 1, 0⟩) value)
    ⟨false, period, 0⟩

def _averageTrueRange (period : ℕ) (visible : List Candle) : Decimal :=
  let ranges := List.zipWith _trueRange visible visible.tail
  (ranges.drop period).foldl (_smoothed period) (_mean (ranges.take period) period)

def atr (candles : List Candle) (period : ℕ) (decisionTimeMs : ℤ) :
    Except FeatureError FeatureResult :=
  _feature "ATR" period (period + 1) (_averageTrueRange period) candles decisionTimeMs

variable {candles visible : List Candle} {t : ℤ} {name : String} {period required : ℕ}
  {measure : List Candle → Decimal} {r : FeatureResult}

theorem visible_eq_ok (h : _visible candles t = .ok visible) :
    visible = candles.filter fun c => c.closeTimeMs < t := by
  unfold _visible at h
  rw [raiseIf_bind_eq_ok] at h
  obtain ⟨-, h⟩ := h
  split at h
  · rename_i hnil
    cases h
    exact hnil.symm
  · rename_i first rest hcons
    rw [unit_bind_eq_ok] at h
    obtain ⟨-, h⟩ := h
    cases h
    exact hcons.symm

theorem result_eq_ok (h : _result name period t visible required measure = .ok r) :
    r.observed = visible.length ∧ r.warmupRequired = required := by
  unfold _result at h
  split at h
  · obtain ⟨-, rfl⟩ := construct_eq_ok.mp h
    exact ⟨rfl, rfl⟩
  · obtain ⟨-, rfl⟩ := construct_eq_ok.mp h
    exact ⟨rfl, rfl⟩

theorem feature_available (h : _feature name period required measure candles t = .ok r) :
    r.available ↔ required ≤ (candles.filter fun c => c.closeTimeMs < t).length := by
  unfold _feature at h
  obtain ⟨p, -, h⟩ := bind_eq_ok.mp h
  obtain ⟨seen, hseen, h⟩ := bind_eq_ok.mp h
  obtain ⟨hobserved, hrequired⟩ := result_eq_ok h
  rw [r.ready_iff.2, hobserved, hrequired, visible_eq_ok hseen]

end Features

end TradingLab
