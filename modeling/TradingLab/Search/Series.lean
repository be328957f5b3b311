import TradingLab.Backtest.Costs
import TradingLab.Backtest.FillEngine

/-!
# Bars, indicators and costs of the strategy search

The four simulators of the search walk over the bars of one cell window. They read
the same bars, decide on the same four indicator values and fill at the open of the
next bar, which has to follow within an hour. What they share is here; the loops and
the accounts are their own.
-/

namespace TradingLab

open Decimal

namespace Search

def hourMs : ℤ := Interval.h1.milliseconds

theorem hourMs_eq : hourMs = 3600000 := rfl

/-- What the simulators raise, by the class of the exception. -/
inductive SearchError
  | search (message : String)
  | survivor (message : String)
  | stop (message : String)
  | vol (message : String)
  | incompleteWindow (boundaryMs : ℤ) (missingDays : List ℤ)
  | index
  | decimal
  | zeroDivision
deriving Repr, DecidableEq

structure Bar (P : Type) where
  openTimeMs : ℤ
  opening : P
  closing : P
deriving DecidableEq

def timesOf {P : Type} (bars : List (Bar P)) : List ℤ := bars.map fun b => b.openTimeMs

/-- The bars of one symbol, in the order of time; no candle opens before 1970. -/
structure BarSeries (P : Type) where
  bars : List (Bar P)
  ordered : (timesOf bars).Pairwise (· < ·)
  sinceEpoch : ∀ t ∈ timesOf bars, 0 ≤ t

/-- Prices as texts, for the exact arithmetic. -/
abbrev ExactSeries := BarSeries String

def BarSeries.times {P : Type} (s : BarSeries P) : List ℤ := timesOf s.bars

/-- How many of the times, which ascend, are before a time. -/
def bisectLeft (times : List ℤ) (t : ℤ) : ℕ := (times.takeWhile fun s => s < t).length

theorem lt_bisectLeft_iff {times : List ℤ} (h : times.Pairwise (· < ·)) {t : ℤ} {i : ℕ} :
    i < bisectLeft times t ↔ ∃ s, times[i]? = some s ∧ s < t := by
  unfold bisectLeft
  induction times generalizing i with
  | nil => simp
  | cons a times ih =>
    obtain ⟨hhead, htail⟩ := List.pairwise_cons.mp h
    by_cases ha : a < t
    · rw [List.takeWhile_cons_of_pos (by simpa using ha), List.length_cons]
      cases i with
      | zero => simp [ha]
      | succ i =>
        rw [Nat.succ_lt_succ_iff, ih htail]
        simp
    · rw [List.takeWhile_cons_of_neg (by simpa using ha), List.length_nil]
      constructor
      · intro hi
        omega
      · rintro ⟨s, hs, hlt⟩
        cases i with
        | zero =>
          cases hs
          exact (ha hlt).elim
        | succ i =>
          have hmem : s ∈ times := List.mem_of_getElem? hs
          have hlater := hhead s hmem
          omega

/-- The value of an indicator at each bar; a value that is not finite is missing. -/
abbrev Indicator := ℕ → Option ℚ

structure Values where
  shortNow : ℚ
  longNow : ℚ
  shortPrev : ℚ
  longPrev : ℚ
deriving DecidableEq

namespace Values

/-- The short indicator has crossed the long one from below. -/
def enter (v : Values) (position : Bool) : Bool :=
  !position && decide (v.longNow < v.shortNow) && decide (v.shortPrev ≤ v.longPrev)

/-- It has crossed it from above. -/
def exits (v : Values) (position : Bool) : Bool :=
  position && decide (v.shortNow < v.longNow) && decide (v.longPrev ≤ v.shortPrev)

theorem not_exits_of_enter {v : Values} {position : Bool} (h : v.enter position = true) :
    v.exits position = false := by
  cases position with
  | false => rfl
  | true => simp [enter] at h

end Values

/-- The values at a bar and the one before it, unless one of them is not finite. -/
def valuesAt (shortValues longValues : Indicator) (i : ℕ) : Option Values := do
  return ⟨← shortValues i, ← longValues i, ← shortValues (i - 1), ← longValues (i - 1)⟩

section Bars
variable {P : Type} (bars : List (Bar P))

def barAt (i : ℕ) : Except SearchError (Bar P) :=
  match bars[i]? with
  | none => .error .index
  | some bar => .ok bar

/-- The bar an hour after another one, when there is no gap between them. -/
def nextBar (i : ℕ) : Option (Bar P) :=
  match bars[i]?, bars[i + 1]? with
  | some bar, some next => if next.openTimeMs = bar.openTimeMs + hourMs then some next else none
  | _, _ => none

/-- The bar that fills a decision: the next one, before the end of the window. -/
def fillBar (stop i : ℕ) : Option (Bar P) := if i + 1 < stop then nextBar bars i else none

variable {bars} {Q : Type} {others : List (Bar Q)}

theorem getElem?_timesOf (bars : List (Bar P)) (i : ℕ) :
    (timesOf bars)[i]? = bars[i]?.map fun b => b.openTimeMs := List.getElem?_map

theorem nextBar_isSome (bars : List (Bar P)) (i : ℕ) : (nextBar bars i).isSome =
    ((timesOf bars)[i + 1]?.isSome &&
      decide ((timesOf bars)[i + 1]? = (timesOf bars)[i]?.map (· + hourMs))) := by
  rw [getElem?_timesOf, getElem?_timesOf]
  unfold nextBar
  cases bars[i]? with
  | none => cases bars[i + 1]? <;> simp
  | some bar =>
    cases bars[i + 1]? with
    | none => rfl
    | some next => by_cases h : next.openTimeMs = bar.openTimeMs + hourMs <;> simp [h]

theorem fillBar_isSome_congr (h : timesOf bars = timesOf others) (stop i : ℕ) :
    (fillBar bars stop i).isSome = (fillBar others stop i).isSome := by
  unfold fillBar
  split
  · rw [nextBar_isSome, nextBar_isSome, h]
  · rfl

end Bars

def windowBars (start stop : ℕ) : List ℕ := List.range' start (stop - start)

structure Rates where
  feeBps : Decimal
  slippageBps : Decimal
deriving DecidableEq

structure Costed where
  gross : Decimal
  fee : Decimal
  slippage : Decimal
deriving DecidableEq

namespace Rates

variable (r : Rates)

def feeRate : Decimal := quotient decimalPrecision r.feeBps basisPoints
def slipRate : Decimal := quotient decimalPrecision r.slippageBps basisPoints

/-- A buy above the reference. -/
def bought (reference quantity : Decimal) : Costed :=
  let execution := mul decimalPrecision reference (add decimalPrecision 1 r.slipRate)
  let gross := mul decimalPrecision quantity execution
  { gross
    fee := mul decimalPrecision gross r.feeRate
    slippage := mul decimalPrecision quantity (sub decimalPrecision execution reference) }

/-- A sell below the reference. -/
def sold (reference quantity : Decimal) : Costed :=
  let execution := mul decimalPrecision reference (sub decimalPrecision 1 r.slipRate)
  let gross := mul decimalPrecision quantity execution
  { gross
    fee := mul decimalPrecision gross r.feeRate
    slippage := mul decimalPrecision quantity (sub decimalPrecision reference execution) }

/-- What a position is worth when it is sold at a mark. -/
def liquidation (mark quantity : Decimal) : Decimal :=
  mul decimalPrecision (r.sold mark quantity).gross (sub decimalPrecision 1 r.feeRate)

end Rates

namespace Costed

def debit (c : Costed) : Decimal := add decimalPrecision c.gross c.fee
def proceeds (c : Costed) : Decimal := sub decimalPrecision c.gross c.fee

end Costed

structure Policy where
  quantity : Decimal
  initialEquityQuote : Decimal
  base : Rates
  stress : Rates
deriving DecidableEq

/-- The peak of the equity and the greatest drawdown so far. -/
structure Drawdown where
  peak : Decimal
  maximum : Decimal
deriving DecidableEq

namespace Drawdown

variable (d : Drawdown)

/-- The equity below the peak, as a part of the peak. -/
def below (peak equity : Decimal) : Except SearchError Decimal :=
  match div? decimalPrecision (sub decimalPrecision peak equity) peak with
  | none => .error .decimal
  | some drawdown => .ok drawdown

def mark (equity : Decimal) : Except SearchError Drawdown := do
  let peak := larger d.peak equity
  let drawdown ← below peak equity
  return ⟨peak, larger d.maximum drawdown⟩

/-- The last equity does not move the peak. -/
def close (equity : Decimal) : Except SearchError Decimal := do
  let drawdown ← below d.peak equity
  return larger d.maximum drawdown

end Drawdown

end Search

end TradingLab
