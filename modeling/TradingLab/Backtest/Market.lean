import TradingLab.Data.Candle
import TradingLab.Json.Basic

/-!
# Specification and market views

What a simulation is run on: its specification and, before every decision, the view
of the market at that time.
-/

/-!
## The backtest specification

One deterministic, local, long-only simulation: a symbol, an aligned range of
primary candles, the initial cash and the two cost rates in basis points. The
safety fields have a single accepted value each; the constructor checks them
after the numbers.
-/

namespace TradingLab

def primaryInterval : Interval := .h1
def regimeInterval : Interval := .h4
def contextInterval : Interval := .m15

def executionPricePolicy : String := "NEXT_PRIMARY_OPEN"
def maxCostBps : Decimal := 1000
def maxInitialCash : Decimal := 1000000000000000
def maxPrimaryCandles : ℤ := 100000

theorem toRat_maxCostBps : maxCostBps.toRat = 1000 := by
  rw [show maxCostBps = OfNat.ofNat 1000 from rfl, Decimal.toRat_ofNat]
  norm_num

structure BacktestConfigError where
  message : String
deriving Repr, DecidableEq

def _boundedDecimal (value field : String) (positive : Bool) (maximum : Decimal) :
    Except BacktestConfigError Decimal := do
  raiseIf (¬ decimalPattern value) ⟨field ++ " must be a plain decimal string"⟩
  let number := Decimal.ofText value
  raiseIf (number < 0 ∨ (positive ∧ number ≈ 0) ∨ maximum < number)
    ⟨field ++ " is outside the allowed range"⟩
  return number

namespace BacktestSpec

structure Fields where
  symbol : Symbol
  startTimeMs : ℤ
  endTimeMs : ℤ
  initialCash : String := "10000"
  feeBps : String := "10"
  slippageBps : String := "5"
  seed : ℤ := 0
  paperOnly : Bool := true
  liveMasterLock : String := "OFF"
  spotOnly : Bool := true
  allowShort : Bool := false
  allowLeverage : Bool := false
  executionPricePolicy : String := TradingLab.executionPricePolicy
deriving Repr, DecidableEq

def Fields.postInit (s : Fields) : Except BacktestConfigError Unit := do
  let hour := primaryInterval.milliseconds
  raiseIf (s.startTimeMs < 0 ∨ s.endTimeMs ≤ s.startTimeMs ∨ s.startTimeMs % hour ≠ 0 ∨
      s.endTimeMs % hour ≠ 0 ∨ maxPrimaryCandles < (s.endTimeMs - s.startTimeMs) / hour)
    ⟨"Backtest range must be a non-empty aligned 1h range"⟩
  let _ ← _boundedDecimal s.initialCash "initial_cash" true maxInitialCash
  let _ ← _boundedDecimal s.feeBps "fee_bps" false maxCostBps
  let _ ← _boundedDecimal s.slippageBps "slippage_bps" false maxCostBps
  raiseIf (s.seed < 0 ∨ 2 ^ 32 - 1 < s.seed) ⟨"Backtest seed is invalid"⟩
  raiseIf (s.paperOnly ≠ true ∨ s.liveMasterLock ≠ "OFF" ∨ s.spotOnly ≠ true ∨
      s.allowShort ≠ false ∨ s.allowLeverage ≠ false ∨
      s.executionPricePolicy ≠ TradingLab.executionPricePolicy)
    ⟨"Backtest safety policy is invalid"⟩

end BacktestSpec

/-- A specification that passed its own check. -/
structure BacktestSpec extends BacktestSpec.Fields where
  valid : toFields.postInit = .ok ()
deriving DecidableEq

theorem _boundedDecimal_ok {value field : String} {positive : Bool} {maximum d : Decimal}
    (h : _boundedDecimal value field positive maximum = .ok d) :
    decimalPattern value ∧ (positive → 0 < (Decimal.ofText value).toRat) ∧
      (Decimal.ofText value).toRat ≤ maximum.toRat := by
  unfold _boundedDecimal at h
  simp only [bind_eq_ok, raiseIf_eq_ok, exists_const, not_not, not_or, not_and, Decimal.lt_def,
    Decimal.equiv_def, Decimal.toRat_zero, not_lt] at h
  obtain ⟨hp, ⟨h0, hz, hm⟩, -⟩ := h
  exact ⟨hp, fun hpos => lt_of_le_of_ne h0 (Ne.symm (hz hpos)), hm⟩

namespace BacktestSpec

def cashDecimal (s : BacktestSpec) : Decimal := Decimal.ofText s.initialCash
def feeBpsDecimal (s : BacktestSpec) : Decimal := Decimal.ofText s.feeBps
def slippageBpsDecimal (s : BacktestSpec) : Decimal := Decimal.ofText s.slippageBps

/-- The range and the numbers the constructor guarantees. -/
theorem facts (s : BacktestSpec) :
    (0 ≤ s.startTimeMs ∧ s.startTimeMs < s.endTimeMs ∧ s.startTimeMs % 3600000 = 0 ∧
      s.endTimeMs % 3600000 = 0) ∧
    (0 < s.cashDecimal.toRat ∧ s.cashDecimal.toRat ≤ 10 ^ 15 ∧
      Decimal.OnGrid 40 s.cashDecimal.toRat) ∧
    (0 ≤ s.feeBpsDecimal.toRat ∧ s.feeBpsDecimal.toRat ≤ 1000 ∧
      Decimal.OnGrid 40 s.feeBpsDecimal.toRat) ∧
    (0 ≤ s.slippageBpsDecimal.toRat ∧ s.slippageBpsDecimal.toRat ≤ 1000 ∧
      Decimal.OnGrid 40 s.slippageBpsDecimal.toRat) := by
  have h := s.valid
  unfold Fields.postInit at h
  simp only [bind_eq_ok, raiseIf_eq_ok, exists_const] at h
  obtain ⟨hrange, c, hc, f, hf, p, hp, -⟩ := h
  obtain ⟨pc, zc, mc⟩ := _boundedDecimal_ok hc
  obtain ⟨pf, -, mf⟩ := _boundedDecimal_ok hf
  obtain ⟨pp, -, mp⟩ := _boundedDecimal_ok hp
  have hour : primaryInterval.milliseconds = 3600000 := rfl
  rw [hour] at hrange
  have hcash : maxInitialCash.toRat = 10 ^ 15 := by
    rw [show maxInitialCash = OfNat.ofNat 1000000000000000 from rfl, Decimal.toRat_ofNat]
    norm_num
  rw [hcash] at mc
  rw [toRat_maxCostBps] at mf mp
  refine ⟨by omega, ⟨zc rfl, mc, onGrid_decimalPattern pc⟩, ⟨?_, mf, onGrid_decimalPattern pf⟩,
    ?_, mp, onGrid_decimalPattern pp⟩
  · exact (decimalPattern_bounds pf).2.2.1
  · exact (decimalPattern_bounds pp).2.2.1

end BacktestSpec

end TradingLab

/-!
## Point-in-time market views

A snapshot holds the candles of the three intervals that are closed before a
decision. Each history is contiguous, belongs to one symbol and ends with the
last candle that can be closed by then.
-/

namespace TradingLab

/-- The storage record of a candle. -/
def Candle.asRecord (c : Candle) : Json := .dict [
  ("source", .str dataSource),
  ("symbol", .str c.symbol.value),
  ("interval", .str c.interval.value),
  ("open_time_ms", .int c.openTimeMs),
  ("close_time_ms", .int c.closeTimeMs),
  ("open", .str c.open'),
  ("high", .str c.high),
  ("low", .str c.low),
  ("close", .str c.close),
  ("base_volume", .str c.baseVolume),
  ("quote_volume", .str c.quoteVolume),
  ("trade_count", .int c.tradeCount),
  ("is_closed", .bool c.isClosed)]

structure BacktestContractError where
  message : String
deriving Repr, DecidableEq

/-- The checks on each candle of a history; `previous` is the open time before it. -/
def _validateCandles (symbol : Symbol) (interval : Interval) (decisionTimeMs : ℤ) :
    Option ℤ → List Candle → Except BacktestContractError Unit
  | _, [] => return
  | previous, candle :: candles => do
      raiseIf (candle.symbol ≠ symbol ∨ candle.interval ≠ interval ∨ ¬ candle.isClosed)
        ⟨interval.value ++ " history identity or state is invalid"⟩
      raiseIf (decisionTimeMs ≤ candle.closeTimeMs)
        ⟨"Future or still-open candle reached the decision"⟩
      raiseIf (previous.any fun open' => candle.openTimeMs ≠ open' + interval.milliseconds)
        ⟨interval.value ++ " history is not contiguous and ordered"⟩
      _validateCandles symbol interval decisionTimeMs (some candle.openTimeMs) candles

def _validateHistory (candles : List Candle) (symbol : Symbol) (interval : Interval)
    (decisionTimeMs : ℤ) : Except BacktestContractError Unit := do
  raiseIf (candles.isEmpty) ⟨interval.value ++ " history must be a non-empty tuple"⟩
  let duration := interval.milliseconds
  let expectedLastOpen := decisionTimeMs / duration * duration - duration
  _validateCandles symbol interval decisionTimeMs none candles
  raiseIf (candles.getLast?.all fun last => last.openTimeMs ≠ expectedLastOpen)
    ⟨interval.value ++ " history is stale at the decision time"⟩

namespace MarketSnapshot

structure Fields where
  symbol : Symbol
  decisionTimeMs : ℤ
  primary : List Candle
  context : List Candle
  regime : List Candle
deriving DecidableEq

def Fields.postInit (s : Fields) : Except BacktestContractError Unit := do
  raiseIf (s.decisionTimeMs ≤ 0 ∨ s.decisionTimeMs % primaryInterval.milliseconds ≠ 0)
    ⟨"Decision time must be an aligned 1h boundary"⟩
  _validateHistory s.primary s.symbol primaryInterval s.decisionTimeMs
  _validateHistory s.context s.symbol contextInterval s.decisionTimeMs
  _validateHistory s.regime s.symbol regimeInterval s.decisionTimeMs

end MarketSnapshot

/-- Information legally visible at one aligned decision. -/
structure MarketSnapshot extends MarketSnapshot.Fields where
  valid : toFields.postInit = .ok ()
deriving DecidableEq

namespace MarketSnapshot

def build (f : Fields) : Except BacktestContractError MarketSnapshot :=
  construct f.postInit fun h => ⟨f, h⟩

theorem _validateHistory_ne_nil {candles : List Candle} {symbol : Symbol} {interval : Interval}
    {t : ℤ} (h : _validateHistory candles symbol interval t = .ok ()) : candles ≠ [] := by
  unfold _validateHistory at h
  rw [raiseIf_bind_eq_ok] at h
  simpa using h.1

theorem facts (s : MarketSnapshot) :
    (0 < s.decisionTimeMs ∧ s.decisionTimeMs % 3600000 = 0) ∧
    s.primary ≠ [] ∧ s.context ≠ [] ∧ s.regime ≠ [] := by
  have h := s.valid
  have hour : primaryInterval.milliseconds = 3600000 := rfl
  unfold Fields.postInit at h
  simp only [unit_bind_eq_ok, raiseIf_eq_ok, hour, not_or, not_le, not_not] at h
  obtain ⟨⟨h0, hm⟩, hp, hc, hr⟩ := h
  exact ⟨⟨h0, hm⟩, _validateHistory_ne_nil hp, _validateHistory_ne_nil hc,
    _validateHistory_ne_nil hr⟩

def latestPrimary (s : MarketSnapshot) : Candle := s.primary.getLast s.facts.2.1

end MarketSnapshot

/-- One candle of each interval, seen at the first decision that has a closed regime candle. -/
def MarketSnapshot.earliest : MarketSnapshot where
  symbol := .btcusdt
  decisionTimeMs := 14400000
  primary := [⟨Candle.flat .btcusdt .h1 10800000 "100", by decide⟩]
  context := [⟨Candle.flat .btcusdt .m15 13500000 "100", by decide⟩]
  regime := [⟨Candle.flat .btcusdt .h4 0 "100", by decide⟩]
  valid := by decide

structure BacktestClockError where
  message : String
deriving Repr, DecidableEq

namespace DecisionEvent

structure Fields where
  sequence : ℤ
  decisionTimeMs : ℤ
  eligibleFillOpenTimeMs : ℤ
  snapshot : MarketSnapshot
deriving DecidableEq

def Fields.postInit (e : Fields) : Except BacktestClockError Unit :=
  raiseIf (e.sequence < 0 ∨ e.decisionTimeMs ≤ 0 ∨
      e.decisionTimeMs % primaryInterval.milliseconds ≠ 0 ∨
      e.eligibleFillOpenTimeMs ≠ e.decisionTimeMs ∨ e.snapshot.decisionTimeMs ≠ e.decisionTimeMs)
    ⟨"Decision event violates the P2 clock contract"⟩

end DecisionEvent

structure DecisionEvent extends DecisionEvent.Fields where
  valid : toFields.postInit = .ok ()
deriving DecidableEq

end TradingLab
