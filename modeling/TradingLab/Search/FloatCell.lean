import TradingLab.Search.Series

/-!
# The cell of the moving average search

The first pass of the search runs the same rule in binary floating point. The numbers
are a parameter: what the cell decides does not depend on how they are rounded.
-/

namespace TradingLab

namespace Search.TrendMa

structure Costs (F : Type) where
  quantity : F
  initial : F
  baseFee : F
  baseSlippage : F
  stressFee : F
  stressSlippage : F

structure Account (F : Type) where
  cash : F
  entryDebit : F
  realized : F

structure CellState (F : Type) where
  base : Account F
  stress : Account F
  position : Bool
  completed : ℕ
  wins : ℕ
  losses : ℕ
  breakeven : ℕ
  grossProfit : F
  grossLoss : F
  largestPositive : F
  baseCost : F
  missingFill : ℕ
  entryFills : ℕ
  exitFills : ℕ
  peak : F
  maxDrawdown : F

section Cell
variable {F : Type} [Add F] [Sub F] [Mul F] [Div F] [Neg F] [Zero F] [One F] [LT F]
  [DecidableLT F] [DecidableEq F]

/-- The first of two numbers, unless the second one is greater. -/
def maxOf (a b : F) : F := if a < b then b else a

namespace CellState

variable (s : CellState F) (c : Costs F) (reference : F)

def init : CellState F where
  base := ⟨c.initial, 0, 0⟩
  stress := ⟨c.initial, 0, 0⟩
  position := false
  completed := 0
  wins := 0
  losses := 0
  breakeven := 0
  grossProfit := 0
  grossLoss := 0
  largestPositive := 0
  baseCost := 0
  missingFill := 0
  entryFills := 0
  exitFills := 0
  peak := c.initial
  maxDrawdown := 0

def marked (close : F) : CellState F :=
  let equity := s.base.cash + if s.position then c.quantity * close else 0
  let peak := maxOf s.peak equity
  { s with
    peak
    maxDrawdown := if 0 < peak then maxOf s.maxDrawdown ((peak - equity) / peak)
      else s.maxDrawdown }

def entered : Except SearchError (CellState F) := do
  let baseExec := reference * (1 + c.baseSlippage)
  let stressExec := reference * (1 + c.stressSlippage)
  let baseFee := c.quantity * baseExec * c.baseFee
  let stressFee := c.quantity * stressExec * c.stressFee
  let baseDebit := c.quantity * baseExec + baseFee
  let stressDebit := c.quantity * stressExec + stressFee
  raiseIf (s.base.cash < baseDebit ∨ s.stress.cash < stressDebit)
    (.search "fixed research quantity exceeds cell equity")
  return { s with
    base := { s.base with cash := s.base.cash - baseDebit, entryDebit := baseDebit }
    stress := { s.stress with cash := s.stress.cash - stressDebit, entryDebit := stressDebit }
    baseCost := s.baseCost + (c.quantity * (baseExec - reference) + baseFee)
    position := true
    entryFills := s.entryFills + 1 }

def exited : CellState F :=
  let baseExec := reference * (1 - c.baseSlippage)
  let stressExec := reference * (1 - c.stressSlippage)
  let baseFee := c.quantity * baseExec * c.baseFee
  let stressFee := c.quantity * stressExec * c.stressFee
  let baseProceeds := c.quantity * baseExec - baseFee
  let stressProceeds := c.quantity * stressExec - stressFee
  let basePnl := baseProceeds - s.base.entryDebit
  let stressPnl := stressProceeds - s.stress.entryDebit
  let win := decide (0 < basePnl)
  let loss := !win && decide (basePnl < 0)
  { s with
    base := { s.base with
      cash := s.base.cash + baseProceeds
      realized := s.base.realized + basePnl }
    stress := { s.stress with
      cash := s.stress.cash + stressProceeds
      realized := s.stress.realized + stressPnl }
    completed := s.completed + 1
    wins := s.wins + if win then 1 else 0
    losses := s.losses + if loss then 1 else 0
    breakeven := s.breakeven + if win || loss then 0 else 1
    grossProfit := if win then s.grossProfit + basePnl else s.grossProfit
    largestPositive := if win then maxOf s.largestPositive basePnl else s.largestPositive
    grossLoss := if loss then s.grossLoss + -basePnl else s.grossLoss
    baseCost := s.baseCost + (c.quantity * (reference - baseExec) + baseFee)
    position := false
    exitFills := s.exitFills + 1 }

end CellState

variable (bars : List (Bar F)) (shortValues longValues : Indicator) (c : Costs F) (stop : ℕ)

def fill (s : CellState F) (i : ℕ) (v : Values) : Except SearchError (CellState F) :=
  if !v.enter s.position && !v.exits s.position then .ok s
  else match fillBar bars stop i with
    | none => .ok { s with missingFill := s.missingFill + 1 }
    | some next =>
        if v.enter s.position then s.entered c next.opening else .ok (s.exited c next.opening)

def step (s : CellState F) (i : ℕ) : Except SearchError (CellState F) := do
  let bar ← barAt bars i
  let s := s.marked c bar.closing
  if i = 0 then return s
  else match valuesAt shortValues longValues i with
    | none => return s
    | some v => fill bars c stop s i v

def loop (is : List ℕ) : Except SearchError (CellState F) :=
  is.foldlM (step bars shortValues longValues c stop) (.init c)

structure BaseResult (F : Type) where
  netPnlAfterCostsQuote : F
  netReturnAfterCosts : F
  realizedClosedTradePnlQuote : F
  grossProfitQuote : F
  grossLossQuote : F
  largestPositiveTradeQuote : F
  executedCostQuote : F
  maximumDrawdownFraction : F

structure StressResult (F : Type) where
  netPnlAfterCostsQuote : F
  netReturnAfterCosts : F
  realizedClosedTradePnlQuote : F

structure CellResult (F : Type) where
  completedTrades : ℕ
  wins : ℕ
  losses : ℕ
  breakeven : ℕ
  entryFills : ℕ
  exitFills : ℕ
  missingFillSignals : ℕ
  openPositionAtEnd : Bool
  base : BaseResult F
  stress : StressResult F

def CellState.result (s : CellState F) (lastClose : F) : Except SearchError (CellResult F) := do
  let held := if s.position then c.quantity * lastClose else 0
  let baseNet := s.base.cash + held - c.initial
  let stressNet := s.stress.cash + held - c.initial
  raiseIf (c.initial = 0) .zeroDivision
  return {
    completedTrades := s.completed
    wins := s.wins
    losses := s.losses
    breakeven := s.breakeven
    entryFills := s.entryFills
    exitFills := s.exitFills
    missingFillSignals := s.missingFill
    openPositionAtEnd := s.position
    base := {
      netPnlAfterCostsQuote := baseNet
      netReturnAfterCosts := baseNet / c.initial
      realizedClosedTradePnlQuote := s.base.realized
      grossProfitQuote := s.grossProfit
      grossLossQuote := s.grossLoss
      largestPositiveTradeQuote := s.largestPositive
      executedCostQuote := s.baseCost
      maximumDrawdownFraction := s.maxDrawdown }
    stress := {
      netPnlAfterCostsQuote := stressNet
      netReturnAfterCosts := stressNet / c.initial
      realizedClosedTradePnlQuote := s.stress.realized } }

def _cell (series : BarSeries F) (shortValues longValues : Indicator) (startMs endMs : ℤ)
    (c : Costs F) : Except SearchError (CellResult F) := do
  let start := bisectLeft series.times startMs
  let stop := bisectLeft series.times endMs
  raiseIf (stop ≤ start) (.search "Development cell has no primary candles")
  let s ← loop series.bars shortValues longValues c stop (windowBars start stop)
  let last ← barAt series.bars (stop - 1)
  s.result c last.closing

end Cell

end Search.TrendMa

end TradingLab
