import TradingLab.Generation2.VolScaling

/-!
# The cell of the volatility scaling

One account buys and sells any quantity within a cycle from entry to exit. The cash of
a sale, the quantities and the cashflow of the cycle are added up in the default
context. A decision before a gap raises; one at the end of the window is counted.
-/

namespace TradingLab

open Decimal Search Search.Survivor

namespace Generation2.VolScaling

structure _Account where
  cash : Decimal
  quantity : Decimal
  cycleCashflow : Option Decimal
  realized : List Decimal
  totalFee : Decimal
  totalSlippage : Decimal
  totalTurnover : Decimal
deriving DecidableEq

def _newAccount (initial : Decimal) : _Account := ⟨initial, 0, none, [], 0, 0, 0⟩

namespace _Account

variable (a : _Account) (r : Rates) (reference quantity : Decimal)

def charged (c : Costed) : _Account :=
  { a with
    totalFee := add defaultPrecision a.totalFee c.fee
    totalSlippage := add defaultPrecision a.totalSlippage c.slippage
    totalTurnover := add defaultPrecision a.totalTurnover c.gross }

/-- The cycle that a buy belongs to. -/
def opened (startCycle : Bool) : Except SearchError Decimal :=
  match startCycle, a.cycleCashflow with
  | true, some _ => .error (.vol "overlapping directional entry")
  | true, none =>
      if a.quantity ≈ 0 then .ok 0 else .error (.vol "overlapping directional entry")
  | false, none => .error (.vol "rebalance buy outside directional cycle")
  | false, some cashflow => .ok cashflow

def _buy (startCycle : Bool) : Except SearchError _Account := do
  raiseIf (quantity < 0) (.vol "negative buy quantity")
  let cashflow ← a.opened startCycle
  if quantity ≈ 0 then return { a with cycleCashflow := some cashflow }
  else do
    let c := r.bought reference quantity
    let cash := sub decimalPrecision a.cash c.debit
    raiseIf (cash < 0) (.vol "insufficient research cash")
    return { a.charged c with
      cash
      quantity := add defaultPrecision a.quantity quantity
      cycleCashflow := some (sub defaultPrecision cashflow c.debit) }

/-- The account after a sale, before the cycle is closed. -/
def sold (cashflow : Decimal) : _Account :=
  if 0 < quantity then
    let c := r.sold reference quantity
    { a.charged c with
      cash := add defaultPrecision a.cash c.proceeds
      quantity := sub defaultPrecision a.quantity quantity
      cycleCashflow := some (add defaultPrecision cashflow c.proceeds) }
  else a

/-- The end of a cycle. -/
def closed : Except SearchError _Account :=
  if a.quantity ≈ 0 then
    .ok { a with realized := a.realized ++ a.cycleCashflow.toList, cycleCashflow := none }
  else .error (.vol "directional exit left residual quantity")

def _sell (closeCycle : Bool) : Except SearchError _Account := do
  raiseIf (quantity < 0 ∨ a.quantity < quantity) (.vol "invalid sell quantity")
  match a.cycleCashflow with
  | none => .error (.vol "sell outside directional cycle")
  | some cashflow =>
      if closeCycle then (a.sold r reference quantity cashflow).closed
      else return a.sold r reference quantity cashflow

def _equity (mark : Decimal) : Decimal :=
  if a.quantity ≈ 0 then a.cash
  else add decimalPrecision a.cash (r.liquidation mark a.quantity)

end _Account

structure CellState where
  base : _Account
  stress : _Account
  logicalPosition : Bool
  currentScale : Decimal
  drawdown : Drawdown
  entrySignals : ℕ
  entryFills : ℕ
  exitFills : ℕ
  missingFills : ℕ
  rebalanceCount : ℕ
  scaledEntryCount : ℕ
  scaleBelowOneEvents : ℕ
  activeHours : ℕ
  exposureNotional : Decimal
  activeScales : List Decimal
deriving DecidableEq

namespace CellState

variable (s : CellState) (p : Policy)

def init (scale : Decimal) : CellState where
  base := _newAccount p.initialEquityQuote
  stress := _newAccount p.initialEquityQuote
  logicalPosition := false
  currentScale := scale
  drawdown := ⟨p.initialEquityQuote, 0⟩
  entrySignals := 0
  entryFills := 0
  exitFills := 0
  missingFills := 0
  rebalanceCount := 0
  scaledEntryCount := 0
  scaleBelowOneEvents := 0
  activeHours := 0
  exposureNotional := 0
  activeScales := []

def marked (bar : Bar String) : Except SearchError CellState := do
  let close := ofText bar.closing
  let drawdown ← s.drawdown.mark (s.base._equity p.base close)
  return if s.logicalPosition then
    { s with
      drawdown
      activeHours := s.activeHours + 1
      activeScales := s.activeScales ++ [s.currentScale]
      exposureNotional := add defaultPrecision s.exposureNotional
        (mul defaultPrecision s.base.quantity close) }
  else { s with drawdown }

/-- The signals are counted, whether they are filled or not. -/
def counted (v : Values) : CellState :=
  { s with entrySignals := s.entrySignals + if v.enter s.logicalPosition then 1 else 0 }

/-- A scale that comes into force. -/
def rescaled (boundaryScale : Option Decimal) : CellState :=
  match boundaryScale with
  | none => s
  | some scale =>
      { s with
        currentScale := scale
        scaleBelowOneEvents := s.scaleBelowOneEvents + if scale < 1 then 1 else 0 }

def exited (reference : Decimal) : Except SearchError CellState := do
  let base ← s.base._sell p.base reference s.base.quantity true
  let stress ← s.stress._sell p.stress reference s.stress.quantity true
  return { s with base, stress, logicalPosition := false, exitFills := s.exitFills + 1 }

def entered (reference scale : Decimal) : Except SearchError CellState := do
  let target := mul defaultPrecision p.quantity scale
  let base ← s.base._buy p.base reference target true
  let stress ← s.stress._buy p.stress reference target true
  return { s with
    base, stress
    logicalPosition := true
    entryFills := s.entryFills + 1
    scaledEntryCount := s.scaledEntryCount + if scale < 1 then 1 else 0 }

/-- A position is brought to the quantity of a scale. -/
def rebalanced (reference scale : Decimal) : Except SearchError CellState := do
  let delta := sub defaultPrecision (mul defaultPrecision p.quantity scale) s.base.quantity
  if 0 < delta then
    let base ← s.base._buy p.base reference delta false
    let stress ← s.stress._buy p.stress reference delta false
    return { s with base, stress, rebalanceCount := s.rebalanceCount + 1 }
  else if delta < 0 then
    let base ← s.base._sell p.base reference (neg defaultPrecision delta) false
    let stress ← s.stress._sell p.stress reference (neg defaultPrecision delta) false
    return { s with base, stress, rebalanceCount := s.rebalanceCount + 1 }
  else return s

end CellState

/-- A scaled run reads its scales from a schedule. -/
abbrev Scaling := Option Schedule

section Cell
variable (bars : List (Bar String)) (shortValues longValues : Indicator) (p : Policy)
  (scaling : Scaling) (stop : ℕ)

/-- The scale that a bar at the begin of a month brings. -/
def boundaryScale (t : ℤ) : Except SearchError (Option Decimal) :=
  match scaling with
  | none => .ok none
  | some schedule =>
      if _isMonthBoundary t then
        match schedule t with
        | none => .error (.vol "missing monthly scale")
        | some scale => .ok (some scale)
      else .ok none

/-- What is done at the next open. -/
def act (s : CellState) (v : Values) (boundary : Option Decimal) (reference : Decimal) :
    Except SearchError CellState :=
  if v.exits s.logicalPosition then
    do return (← s.exited p reference).rescaled boundary
  else if v.enter s.logicalPosition then
    do return (← s.entered p reference (boundary.getD s.currentScale)).rescaled boundary
  else
    match boundary with
    | none => .ok s
    | some scale => do return (← s.rebalanced p reference scale).rescaled boundary

/-- A signal, or a new scale for a position, needs a fill. -/
def settle (s : CellState) (i : ℕ) (v : Values) (boundary : Option Decimal) :
    Except SearchError CellState :=
  if v.enter s.logicalPosition || v.exits s.logicalPosition ||
      (s.logicalPosition && boundary.isSome) then
    if stop ≤ i + 1 then .ok { s with missingFills := s.missingFills + 1 }
    else match nextBar bars i with
      | none => .error (.vol "required GEN2-002 fill bar is missing")
      | some next => act p s v boundary (ofText next.opening)
  else .ok (s.rescaled boundary)

def step (s : CellState) (i : ℕ) : Except SearchError CellState := do
  let bar ← barAt bars i
  let s ← s.marked p bar
  if i = 0 then return s
  else match valuesAt shortValues longValues i with
    | none => return s
    | some v => do
        let boundary ← boundaryScale scaling bar.openTimeMs
        settle bars p stop (s.counted v) i v boundary

def loop (start : CellState) (is : List ℕ) : Except SearchError CellState :=
  is.foldlM (step bars shortValues longValues p scaling stop) start

inductive Stepped (s : CellState) (i : ℕ) (s' : CellState) : Prop
  | skipped {bar : Bar String} (hbar : bars[i]? = some bar) (hmark : s.marked p bar = .ok s')
      (hskip : i = 0 ∨ valuesAt shortValues longValues i = none)
  | settled {bar : Bar String} {u : CellState} {v : Values} {boundary : Option Decimal}
      (hbar : bars[i]? = some bar) (hmark : s.marked p bar = .ok u) (hi : i ≠ 0)
      (hv : valuesAt shortValues longValues i = some v)
      (hboundary : boundaryScale scaling bar.openTimeMs = .ok boundary)
      (hsettle : settle bars p stop (u.counted v) i v boundary = .ok s')

variable {bars shortValues longValues p scaling stop}

theorem barAt_eq_ok {P : Type} {bars : List (Bar P)} {i : ℕ} {bar : Bar P} :
    barAt bars i = .ok bar ↔ bars[i]? = some bar := by
  unfold barAt
  cases bars[i]? <;> simp

theorem marked_eq_ok {s u : CellState} {bar : Bar String} (h : s.marked p bar = .ok u) :
    u.base = s.base ∧ u.stress = s.stress ∧ u.logicalPosition = s.logicalPosition ∧
      u.currentScale = s.currentScale := by
  unfold CellState.marked at h
  obtain ⟨drawdown, -, h⟩ := bind_eq_ok.mp h
  cases h
  split <;> exact ⟨rfl, rfl, rfl, rfl⟩

theorem stepped_of_ok {s s' : CellState} {i : ℕ}
    (h : step bars shortValues longValues p scaling stop s i = .ok s') :
    Stepped bars shortValues longValues p scaling stop s i s' := by
  unfold step at h
  obtain ⟨bar, hbar, h⟩ := bind_eq_ok.mp h
  obtain ⟨u, hmark, h⟩ := bind_eq_ok.mp h
  have hbar := barAt_eq_ok.mp hbar
  split at h
  · cases h
    exact .skipped hbar hmark (.inl ‹_›)
  · cases hv : valuesAt shortValues longValues i with
    | none =>
      rw [hv] at h
      cases h
      exact .skipped hbar hmark (.inr hv)
    | some v =>
      rw [hv] at h
      obtain ⟨boundary, hboundary, hsettle⟩ := bind_eq_ok.mp h
      exact .settled hbar hmark ‹_› hv hboundary hsettle

end Cell

structure CellResult where
  baseNet : Decimal
  stressNet : Decimal
  realized : Decimal
  stressRealized : Decimal
  maximumDrawdown : Decimal
  completedTrades : ℕ
  expectancy : Decimal
  stressExpectancy : Decimal
  profitFactor : Option String
  profitFactorInfinite : Bool
  underlyingEntrySignals : ℕ
  entryFills : ℕ
  exitFills : ℕ
  missingFillEvents : ℕ
  monthlyRebalanceCount : ℕ
  scaledEntryCount : ℕ
  scaleBelowOneEvents : ℕ
  activeExposureHours : ℕ
  exposureNotionalSum : Decimal
  meanActiveScale : Decimal
  medianActiveScale : Decimal
  minimumActiveScale : Decimal
  baseTurnoverQuote : Decimal
  stressTurnoverQuote : Decimal
  openPositionAtEnd : Bool
deriving DecidableEq

/-- The middle of the scales that were in force while a position was held. -/
def CellState.medianScale (s : CellState) : Except SearchError Decimal :=
  if s.activeScales = [] then .ok 1 else _medianDecimal s.activeScales

def CellState.result (s : CellState) (p : Policy) (finalMark : Decimal) :
    Except SearchError CellResult := do
  let baseFinal := s.base._equity p.base finalMark
  let stressFinal := s.stress._equity p.stress finalMark
  let maximumDrawdown ← s.drawdown.close baseFinal
  let realized := _sum s.base.realized
  let stressRealized := _sum s.stress.realized
  let profit := _profitFactor (_sum (s.base.realized.filter fun x => 0 < x))
    (neg defaultPrecision (_sum (s.base.realized.filter fun x => x < 0)))
  let medianActiveScale ← s.medianScale
  return {
    baseNet := sub decimalPrecision baseFinal p.initialEquityQuote
    stressNet := sub decimalPrecision stressFinal p.initialEquityQuote
    realized
    stressRealized
    maximumDrawdown
    completedTrades := s.base.realized.length
    expectancy := meanOf realized s.base.realized.length 0
    stressExpectancy := meanOf stressRealized s.base.realized.length 0
    profitFactor := profit.1
    profitFactorInfinite := profit.2
    underlyingEntrySignals := s.entrySignals
    entryFills := s.entryFills
    exitFills := s.exitFills
    missingFillEvents := s.missingFills
    monthlyRebalanceCount := s.rebalanceCount
    scaledEntryCount := s.scaledEntryCount
    scaleBelowOneEvents := s.scaleBelowOneEvents
    activeExposureHours := s.activeHours
    exposureNotionalSum := s.exposureNotional
    meanActiveScale := meanOf (_sum s.activeScales) s.activeScales.length 1
    medianActiveScale
    minimumActiveScale := s.activeScales.tail.foldl smaller (s.activeScales.headD 1)
    baseTurnoverQuote := s.base.totalTurnover
    stressTurnoverQuote := s.stress.totalTurnover
    openPositionAtEnd := s.logicalPosition }

/-- The window of a cell and the state it starts with. -/
structure Opened where
  start : ℕ
  stop : ℕ
  state : CellState

def openCell {P : Type} (signal : BarSeries P) (exact : ExactSeries) (startMs endMs : ℤ)
    (p : Policy) (scaling : Scaling) : Except SearchError Opened := do
  raiseIf (signal.times ≠ exact.times) (.vol "signal/exact timestamps differ")
  let start := bisectLeft exact.times startMs
  let stop := bisectLeft exact.times endMs
  raiseIf (stop ≤ start) (.vol "Development cell is empty")
  let first ← barAt exact.bars start
  match scaling with
  | none => return ⟨start, stop, .init p 1⟩
  | some schedule =>
      match schedule (_monthStartMs first.openTimeMs) with
      | none => .error (.vol "missing scale at scored cell start")
      | some scale => return ⟨start, stop, .init p scale⟩

/-- The scale that a cell starts with: one, or that of the month of its first bar. -/
def StartsWith (exact : ExactSeries) (start : ℕ) (scale : Decimal) : Scaling → Prop
  | none => scale = 1
  | some schedule => ∃ first, exact.bars[start]? = some first ∧
      schedule (_monthStartMs first.openTimeMs) = some scale

theorem openCell_eq_ok {P : Type} {signal : BarSeries P} {exact : ExactSeries} {startMs endMs : ℤ}
    {p : Policy} {scaling : Scaling} {opened : Opened}
    (h : openCell signal exact startMs endMs p scaling = .ok opened) :
    signal.times = exact.times ∧ opened.start = bisectLeft exact.times startMs ∧
      opened.stop = bisectLeft exact.times endMs ∧ opened.start < opened.stop ∧
      ∃ scale, opened.state = .init p scale ∧ StartsWith exact opened.start scale scaling := by
  unfold openCell at h
  obtain ⟨htimes, h⟩ := raiseIf_bind_eq_ok.mp h
  obtain ⟨hwindow, h⟩ := raiseIf_bind_eq_ok.mp h
  obtain ⟨first, hfirst, h⟩ := bind_eq_ok.mp h
  have hfirst := barAt_eq_ok.mp hfirst
  cases scaling with
  | none =>
    cases h
    exact ⟨not_not.mp htimes, rfl, rfl, Nat.lt_of_not_le hwindow, 1, rfl, rfl⟩
  | some schedule =>
    dsimp only at h
    split at h
    · cases h
    · cases h
      exact ⟨not_not.mp htimes, rfl, rfl, Nat.lt_of_not_le hwindow, _, rfl, first, hfirst, ‹_›⟩

def _simulateCell {P : Type} (signal : BarSeries P) (exact : ExactSeries)
    (shortValues longValues : Indicator) (startMs endMs : ℤ) (p : Policy) (scaling : Scaling) :
    Except SearchError CellResult := do
  let opened ← openCell signal exact startMs endMs p scaling
  let s ← loop exact.bars shortValues longValues p scaling opened.stop opened.state
    (windowBars opened.start opened.stop)
  let last ← barAt exact.bars (opened.stop - 1)
  s.result p (ofText last.closing)

end Generation2.VolScaling

end TradingLab
