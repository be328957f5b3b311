import TradingLab.Search.ExactCell

/-!
# The stop overlay of the second generation

The simulator keeps the accounts of the exact cell and adds an exit: with a threshold,
a close at or below the stop level leaves the position at the next open as well.
-/

namespace TradingLab

open Decimal Search Search.Survivor

namespace Generation2.StopOverlay

def thresholds : List ℕ := [10, 20, 30, 40, 50]

structure CellState where
  base : _Account
  stress : _Account
  position : Bool
  entryReference : Option Decimal
  drawdown : Drawdown
  entries : ℕ
  ordinaryExits : ℕ
  stopExits : ℕ
  dualExits : ℕ
  missingSignalFills : ℕ
  missingStopFills : ℕ
deriving DecidableEq

namespace CellState

variable (s : CellState) (p : Policy)

def init : CellState where
  base := _newAccount p.initialEquityQuote
  stress := _newAccount p.initialEquityQuote
  position := false
  entryReference := none
  drawdown := ⟨p.initialEquityQuote, 0⟩
  entries := 0
  ordinaryExits := 0
  stopExits := 0
  dualExits := 0
  missingSignalFills := 0
  missingStopFills := 0

def marked (bar : Bar String) : Except SearchError CellState := do
  let drawdown ← s.drawdown.mark (s.base._equity p.base p.quantity (ofText bar.closing))
  return { s with drawdown }

/-- A close at or below the stop level. -/
def stopExit (threshold : Option ℕ) (close : Decimal) : Except SearchError Bool :=
  match threshold with
  | none => .ok false
  | some percent =>
      if s.position then
        match s.entryReference with
        | none => .error (.stop "open position is missing entry reference")
        | some reference =>
            let kept := sub decimalPrecision 1
              (quotient decimalPrecision (ofInt percent 0) (ofInt 100 0))
            .ok (decide (close ≤ mul decimalPrecision reference kept))
      else .ok false

def missed (stopExit : Bool) : CellState :=
  if stopExit then { s with missingStopFills := s.missingStopFills + 1 }
  else { s with missingSignalFills := s.missingSignalFills + 1 }

def exited (reference : Decimal) (ordinaryExit stopExit : Bool) : Except SearchError CellState := do
  let base ← s.base._exit p.base reference p.quantity
  let stress ← s.stress._exit p.stress reference p.quantity
  return { s with
    base, stress
    position := false
    entryReference := none
    dualExits := s.dualExits + if ordinaryExit && stopExit then 1 else 0
    stopExits := s.stopExits + if !ordinaryExit && stopExit then 1 else 0
    ordinaryExits := s.ordinaryExits + if stopExit then 0 else 1 }

def entered (reference : Decimal) : Except SearchError CellState := do
  let base ← s.base._entry p.base reference p.quantity
  let stress ← s.stress._entry p.stress reference p.quantity
  return { s with
    base, stress
    position := true
    entryReference := some reference
    entries := s.entries + 1 }

end CellState

section Cell
variable (bars : List (Bar String)) (shortValues longValues : Indicator) (threshold : Option ℕ)
  (p : Policy) (stop : ℕ)

/-- A position is left before an entry is looked for. -/
def fill (s : CellState) (i : ℕ) (close : Decimal) (v : Values) : Except SearchError CellState := do
  let stopExit ← s.stopExit threshold close
  let ordinaryExit := v.exits s.position
  if s.position && (ordinaryExit || stopExit) then
    match fillBar bars stop i with
    | none => return s.missed stopExit
    | some next => s.exited p (ofText next.opening) ordinaryExit stopExit
  else if v.enter s.position then
    match fillBar bars stop i with
    | none => return s.missed false
    | some next => s.entered p (ofText next.opening)
  else return s

def step (s : CellState) (i : ℕ) : Except SearchError CellState := do
  let bar ← barAt bars i
  let s ← s.marked p bar
  if i = 0 then return s
  else match valuesAt shortValues longValues i with
    | none => return s
    | some v => fill bars threshold p stop s i (ofText bar.closing) v

def loop (is : List ℕ) : Except SearchError CellState :=
  is.foldlM (step bars shortValues longValues threshold p stop) (.init p)

end Cell

structure CellResult where
  baseNet : Decimal
  stressNet : Decimal
  realized : Decimal
  stressRealized : Decimal
  maximumDrawdown : Decimal
  completedTrades : ℕ
  expectancy : Decimal
  profitFactor : Option String
  profitFactorInfinite : Bool
  entryFills : ℕ
  ordinaryExitFills : ℕ
  stopExitFills : ℕ
  dualExitFills : ℕ
  missingSignalFills : ℕ
  missingStopFills : ℕ
  openPositionAtEnd : Bool
deriving DecidableEq

def CellState.result (s : CellState) (p : Policy) (finalMark : Decimal) :
    Except SearchError CellResult := do
  let baseFinal := s.base._equity p.base p.quantity finalMark
  let stressFinal := s.stress._equity p.stress p.quantity finalMark
  let maximumDrawdown ← s.drawdown.close baseFinal
  let realized := _sum s.base.realized
  let profit := _profitFactor (_sum (s.base.realized.filter fun x => 0 < x))
    (neg defaultPrecision (_sum (s.base.realized.filter fun x => x < 0)))
  return {
    baseNet := sub decimalPrecision baseFinal p.initialEquityQuote
    stressNet := sub decimalPrecision stressFinal p.initialEquityQuote
    realized
    stressRealized := _sum s.stress.realized
    maximumDrawdown
    completedTrades := s.base.realized.length
    expectancy := meanOf realized s.base.realized.length 0
    profitFactor := profit.1
    profitFactorInfinite := profit.2
    entryFills := s.entries
    ordinaryExitFills := s.ordinaryExits
    stopExitFills := s.stopExits
    dualExitFills := s.dualExits
    missingSignalFills := s.missingSignalFills
    missingStopFills := s.missingStopFills
    openPositionAtEnd := s.position }

def _simulateCell {P : Type} (signal : BarSeries P) (exact : ExactSeries)
    (shortValues longValues : Indicator) (startMs endMs : ℤ) (threshold : Option ℕ) (p : Policy) :
    Except SearchError CellResult := do
  raiseIf (signal.times ≠ exact.times) (.stop "signal/exact timestamps differ")
  let start := bisectLeft exact.times startMs
  let stop := bisectLeft exact.times endMs
  raiseIf (stop ≤ start) (.stop "Development cell is empty")
  raiseIf (∃ percent ∈ threshold, percent ∉ thresholds) (.stop "stop threshold is outside frozen grid")
  let s ← loop exact.bars shortValues longValues threshold p stop (windowBars start stop)
  let last ← barAt exact.bars (stop - 1)
  s.result p (ofText last.closing)

end Generation2.StopOverlay

end TradingLab
