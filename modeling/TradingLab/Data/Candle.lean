import TradingLab.Method
import TradingLab.Decimal.Text

/-!
# Markets, timeframes and canonical candles

The approved symbols and intervals are fixed, so they are enumerations. A candle
keeps the exchange's decimal strings; its constructor checks alignment, the close
time, every number and the order of the four prices. The data source has a single
approved value and is not stored.
-/

namespace TradingLab

open Decimal

inductive Symbol where
  | btcusdt
  | ethusdt
deriving Repr, DecidableEq

namespace Symbol

def value : Symbol → String
  | btcusdt => "BTCUSDT"
  | ethusdt => "ETHUSDT"

def all : List Symbol := [btcusdt, ethusdt]

def ofText? (s : String) : Option Symbol := all.find? fun x => x.value == s

@[simp] theorem ofText?_value (x : Symbol) : ofText? x.value = some x := by
  cases x <;> decide

theorem value_injective {x y : Symbol} (h : x.value = y.value) : x = y := by
  have := congrArg ofText? h
  simpa using this

end Symbol

inductive Interval where
  | m15
  | h1
  | h4
deriving Repr, DecidableEq

namespace Interval

def value : Interval → String
  | m15 => "15m"
  | h1 => "1h"
  | h4 => "4h"

def milliseconds : Interval → ℤ
  | m15 => 15 * 60 * 1000
  | h1 => 60 * 60 * 1000
  | h4 => 4 * 60 * 60 * 1000

theorem milliseconds_pos (i : Interval) : 0 < i.milliseconds := by
  cases i <;> decide

end Interval

def dataSource : String := "BINANCE_SPOT_PUBLIC"

/-- At most forty digits on either side of the point. -/
def decimalPattern (s : String) : Bool := Decimal.unsignedText 40 40 s

theorem decimalPattern_bounds {s : String} (h : decimalPattern s) :
    -(40 : ℤ) ≤ (Decimal.ofText s).exponent ∧ (Decimal.ofText s).exponent ≤ 0 ∧
      0 ≤ (Decimal.ofText s).toRat ∧ (Decimal.ofText s).toRat < 10 ^ 40 :=
  Decimal.unsignedText_bounds (by norm_num) h

theorem onGrid_decimalPattern {s : String} (h : decimalPattern s) :
    Decimal.OnGrid 40 (Decimal.ofText s).toRat :=
  Decimal.onGrid_of_unsignedText (by norm_num) h

structure CandleValidationError where
  message : String
deriving Repr, DecidableEq

namespace Candle

/-- The fields of a candle as they are passed to the constructor. -/
structure Fields where
  symbol : Symbol
  interval : Interval
  openTimeMs : ℤ
  closeTimeMs : ℤ
  open' : String
  high : String
  low : String
  close : String
  baseVolume : String
  quoteVolume : String
  tradeCount : ℤ
  isClosed : Bool
deriving Repr, DecidableEq

def _decimal (value field : String) (allowZero : Bool) : Except CandleValidationError Decimal := do
  raiseIf (¬ decimalPattern value) ⟨field ++ " must be a plain non-negative decimal string"⟩
  let number := Decimal.ofText value
  raiseIf (number < 0 ∨ (¬ allowZero ∧ number ≈ 0)) ⟨field ++ " is outside the allowed range"⟩
  return number

def Fields.postInit (c : Fields) : Except CandleValidationError Unit := do
  raiseIf (c.openTimeMs < 0) ⟨"Candle timestamps must be non-negative integers"⟩
  let duration := c.interval.milliseconds
  raiseIf (c.openTimeMs % duration ≠ 0)
    ⟨"Candle open timestamp is not interval-aligned UTC"⟩
  raiseIf (c.closeTimeMs ≠ c.openTimeMs + duration - 1)
    ⟨"Candle close timestamp does not match its interval"⟩
  raiseIf (c.tradeCount < 0) ⟨"Trade count must be a non-negative integer"⟩
  let opened ← _decimal c.open' "open" false
  let high ← _decimal c.high "high" false
  let low ← _decimal c.low "low" false
  let closed ← _decimal c.close "close" false
  let _ ← _decimal c.baseVolume "base_volume" true
  let _ ← _decimal c.quoteVolume "quote_volume" true
  raiseIf (¬ (low ≤ opened.smaller closed ∧ opened.smaller closed ≤ opened.larger closed ∧
    opened.larger closed ≤ high)) ⟨"Candle OHLC values are inconsistent"⟩

theorem _decimal_eq_ok {value field : String} {allowZero : Bool} {d : Decimal} :
    _decimal value field allowZero = .ok d ↔
      decimalPattern value ∧ (allowZero ∨ 0 < (Decimal.ofText value).toRat) ∧
        d = Decimal.ofText value := by
  unfold _decimal
  simp only [raiseIf_bind_eq_ok, not_not, lt_def, equiv_def, toRat_zero,
    pure, Except.pure, Except.ok.injEq]
  constructor
  · rintro ⟨hp, hr, rfl⟩
    have h0 := (decimalPattern_bounds hp).2.2.1
    refine ⟨hp, ?_, rfl⟩
    rw [not_or, not_and_or, not_not] at hr
    rcases hr.2 with hz | hz
    · exact .inl hz
    · exact .inr (lt_of_le_of_ne h0 (Ne.symm hz))
  · rintro ⟨hp, hz, rfl⟩
    have h0 := (decimalPattern_bounds hp).2.2.1
    refine ⟨hp, ?_, rfl⟩
    rw [not_or, not_and_or, not_not]
    refine ⟨not_lt.mpr h0, ?_⟩
    rcases hz with hz | hz
    · exact .inl hz
    · exact .inr hz.ne'

end Candle

structure Candle extends Candle.Fields where
  valid : toFields.postInit = .ok ()
deriving DecidableEq

namespace Candle

/-- Everything the constructor guarantees. -/
theorem facts (c : Candle) :
    0 ≤ c.openTimeMs ∧ c.openTimeMs % c.interval.milliseconds = 0 ∧
    c.closeTimeMs = c.openTimeMs + c.interval.milliseconds - 1 ∧
    (∀ s ∈ [c.open', c.high, c.low, c.close], decimalPattern s ∧ 0 < (Decimal.ofText s).toRat) ∧
    decimalPattern c.baseVolume ∧ decimalPattern c.quoteVolume ∧
    (Decimal.ofText c.low).toRat ≤ (Decimal.ofText c.open').toRat ∧
    (Decimal.ofText c.low).toRat ≤ (Decimal.ofText c.close).toRat ∧
    (Decimal.ofText c.open').toRat ≤ (Decimal.ofText c.high).toRat ∧
    (Decimal.ofText c.close).toRat ≤ (Decimal.ofText c.high).toRat := by
  have h := c.valid
  unfold Fields.postInit at h
  simp only [bind_eq_ok, _decimal_eq_ok, raiseIf_eq_ok, not_not, exists_const] at h
  obtain ⟨h0, hd, hc, -, o, ⟨po, zo, rfl⟩, hi, ⟨ph, zh, rfl⟩, lo, ⟨pl, zl, rfl⟩, cl, ⟨pc, zc, rfl⟩,
    -, ⟨pb, -, -⟩, -, ⟨pq, -, -⟩, h1, -, h3⟩ := h
  simp only [Bool.false_eq_true, false_or] at zo zh zl zc
  refine ⟨by omega, hd, hc, ?_, pb, pq, ?_⟩
  · intro s hs
    simp only [List.mem_cons, List.not_mem_nil, or_false] at hs
    rcases hs with rfl | rfl | rfl | rfl
    · exact ⟨po, zo⟩
    · exact ⟨ph, zh⟩
    · exact ⟨pl, zl⟩
    · exact ⟨pc, zc⟩
  · simp only [smaller, larger, le_def, lt_def] at h1 h3
    split at h1 <;> split at h3 <;> refine ⟨?_, ?_, ?_, ?_⟩ <;> linarith

/-- A closed candle that trades at one price only. -/
def flat (symbol : Symbol) (interval : Interval) (openTimeMs : ℤ) (price : String) :
    Fields where
  symbol := symbol
  interval := interval
  openTimeMs := openTimeMs
  closeTimeMs := openTimeMs + interval.milliseconds - 1
  open' := price
  high := price
  low := price
  close := price
  baseVolume := "1000"
  quoteVolume := "1000"
  tradeCount := 1
  isClosed := true

theorem postInit_flat (symbol : Symbol) {interval : Interval} {openTimeMs : ℤ}
    (h0 : 0 ≤ openTimeMs) (hd : openTimeMs % interval.milliseconds = 0) :
    (flat symbol interval openTimeMs "100").postInit = .ok () := by
  have hpos : (0 : Decimal) < ofText "100" := by decide
  rw [lt_def, toRat_zero] at hpos
  have hprice : ∀ field, _decimal "100" field false = .ok ⟨false, 100, 0⟩ :=
    fun _ => _decimal_eq_ok.mpr ⟨by decide, .inr hpos, by decide⟩
  have hvolume : ∀ field, _decimal "1000" field true = .ok ⟨false, 1000, 0⟩ :=
    fun _ => _decimal_eq_ok.mpr ⟨by decide, .inl rfl, by decide⟩
  have hneg : ¬ openTimeMs < 0 := by omega
  unfold Fields.postInit
  simp only [flat, hprice, hvolume, hd, hneg, ok_bind]
  simp
  decide

theorem postInit_later (c : Candle) (n : ℕ) :
    ({ c.toFields with
      openTimeMs := c.openTimeMs + n * c.interval.milliseconds
      closeTimeMs := c.closeTimeMs + n * c.interval.milliseconds } : Fields).postInit = .ok () := by
  have h := c.valid
  have hpos : 0 ≤ (n : ℤ) * c.interval.milliseconds :=
    mul_nonneg (Int.natCast_nonneg n) c.interval.milliseconds_pos.le
  unfold Fields.postInit at h ⊢
  simp only [raiseIf_bind_eq_ok] at h ⊢
  obtain ⟨h0, hd, hc, hrest⟩ := h
  refine ⟨by omega, ?_, by omega, hrest⟩
  rw [Int.add_mul_emod_self_right]
  exact hd

def later (c : Candle) (n : ℕ) : Candle := ⟨_, c.postInit_later n⟩

def series (c : Candle) (n : ℕ) : List Candle := (List.range n).map c.later

end Candle

end TradingLab
