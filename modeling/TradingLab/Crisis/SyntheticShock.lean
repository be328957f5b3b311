import TradingLab.Crisis.Replay

/-!
# A synthetic shock of an open position

A confirmed entry is shown one more candle: a flat one, at a price below the close
of the entry candle. The strategy decides before that without knowing the shock.
The position is closed at the shock when the strategy leaves or the bracket is
touched; otherwise it is kept and valued at the price of the shock.
-/

namespace TradingLab

open Decimal

namespace Crisis

structure ShockError where
  message : String
deriving Repr, DecidableEq

def primaryMs : ℤ := Interval.h1.milliseconds

structure PortfolioAfterEntry where
  symbol : Symbol
  assetQuantity : String
  cash : String
  costBasisQuote : String
  realizedPnlQuote : String
deriving Repr, DecidableEq

structure EntryFill where
  action : String
  reason : String
  fillTimeMs : ℤ
  quantity : String
deriving Repr, DecidableEq

structure Episode where
  symbol : Symbol
  decisionTimeMs : ℤ
  fillTimeMs : ℤ
  contextSha256 : String
  activeSetup : LongSetup.Fields
  portfolioAfterEntry : PortfolioAfterEntry
  entryFill : EntryFill
  entryCandle : Candle.Fields
  sourceStateConfirmedAtMs : ℤ
deriving Repr, DecidableEq

/-- `Decimal` of a text. -/
def _number (text message : String) : Except ShockError Numeral :=
  match Numeral.ofString text with
  | some n => .ok n
  | none => .error ⟨message⟩

def _finite (n : Numeral) (message : String) : Except ShockError Decimal :=
  match n with
  | .finite d => .ok d
  | _ => .error ⟨message⟩

/-- What the check of an episode hands on. -/
structure Source where
  symbol : Symbol
  entryCandle : Candle
  setup : LongSetup
  quantity : Decimal
  cash : Decimal

def _validateEpisode (episode : Episode) : Except ShockError Source := do
  raiseIf (episode.fillTimeMs ≠ episode.decisionTimeMs ∨ episode.contextSha256.length ≠ 64)
    ⟨"source episode identity is incomplete"⟩
  let setup ← (LongSetup.build episode.activeSetup).mapError fun _ =>
    ⟨"source setup or entry candle is invalid"⟩
  let entryCandle ← (construct episode.entryCandle.postInit fun h => (⟨_, h⟩ : Candle)).mapError
    fun _ => ⟨"source setup or entry candle is invalid"⟩
  let portfolio := episode.portfolioAfterEntry
  raiseIf (entryCandle.symbol ≠ episode.symbol ∨ entryCandle.interval ≠ .h1 ∨
      entryCandle.openTimeMs ≠ episode.fillTimeMs ∨
      entryCandle.closeTimeMs ≠ episode.fillTimeMs + primaryMs - 1 ∨
      episode.sourceStateConfirmedAtMs ≠ entryCandle.closeTimeMs ∨
      episode.entryFill.action ≠ "ENTER_LONG" ∨ episode.entryFill.reason ≠ "NEXT_PRIMARY_OPEN" ∨
      episode.entryFill.fillTimeMs ≠ episode.fillTimeMs ∨
      episode.entryFill.quantity ≠ runnerQuantity ∨ portfolio.symbol ≠ episode.symbol ∨
      portfolio.assetQuantity ≠ runnerQuantity)
    ⟨"source episode is not a confirmed open Paper entry"⟩
  let quantity ← _number portfolio.assetQuantity "source portfolio arithmetic is invalid"
  let cash ← _number portfolio.cash "source portfolio arithmetic is invalid"
  let costBasis ← _number portfolio.costBasisQuote "source portfolio arithmetic is invalid"
  let realized ← _number portfolio.realizedPnlQuote "source portfolio arithmetic is invalid"
  let quantity ← _finite quantity "source portfolio state is invalid"
  let cash ← _finite cash "source portfolio state is invalid"
  let costBasis ← _finite costBasis "source portfolio state is invalid"
  let _ ← _finite realized "source portfolio state is invalid"
  raiseIf (quantity ≤ 0 ∨ cash < 0 ∨ costBasis ≤ 0) ⟨"source portfolio state is invalid"⟩
  return ⟨episode.symbol, entryCandle, setup, quantity, cash⟩

/-- What the strategy decided before the shock. -/
structure BeforeShock where
  decisionTimeMs : ℤ
  action : StrategyAction
deriving Repr, DecidableEq

/-- The strategy sees the corpus up to the entry candle, and not the scenario. -/
def _strategyBeforeShock (strategy : Source → Except ShockError StrategyAction) (source : Source) :
    Except ShockError BeforeShock := do
  let action ← strategy source
  raiseIf (action = .enterLong) ⟨"in-position Strategy attempted overlapping entry"⟩
  return ⟨source.entryCandle.openTimeMs + primaryMs, action⟩

structure Scenario where
  scenarioId : String
  adverseGapBps : ℤ
  slippageMultiplier : ℤ
deriving Repr, DecidableEq

def slippageBps (multiplier : ℤ) : Decimal :=
  mul defaultPrecision (ofText CandidateFreeze.slippageBps) (ofInt multiplier 0)

def _scenarioSpec (symbol : Symbol) (decisionTimeMs multiplier : ℤ) :
    Except ShockError BacktestSpec :=
  let fields : BacktestSpec.Fields := {
    symbol
    startTimeMs := decisionTimeMs
    endTimeMs := decisionTimeMs + primaryMs
    initialCash := CandidateFreeze.initialEquityQuote
    feeBps := CandidateFreeze.feeBps
    slippageBps := _plain (slippageBps multiplier) }
  (construct fields.postInit fun h => (⟨fields, h⟩ : BacktestSpec)).mapError fun _ =>
    ⟨"synthetic scenario spec is invalid"⟩

def _sourceSpec (symbol : Symbol) (decisionTimeMs : ℤ) : Except ShockError BacktestSpec :=
  (PaperRunner._spec symbol decisionTimeMs (decisionTimeMs + primaryMs)).mapError fun _ =>
    ⟨"source valuation spec is invalid"⟩

/-- The anchor without the gap. -/
def shocked (anchor : Decimal) (gap : ℤ) : Decimal :=
  mul decimalPrecision anchor
    (sub decimalPrecision 1 (quotient decimalPrecision (ofInt gap 0) basisPoints))

def _syntheticPrice (anchor : String) (adverseGapBps : ℤ) : Except ShockError String := do
  let value := ofText anchor
  raiseIf (value ≤ 0 ∨ adverseGapBps ∉ [500, 1000, 2000]) ⟨"shock price inputs are invalid"⟩
  return _plain (shocked value adverseGapBps)

/-- The candle of the hour after the entry, at one price. -/
def _syntheticCandle (source : Candle) (decisionTimeMs : ℤ) (price : String) :
    Except ShockError Candle :=
  let fields : Candle.Fields := {
    symbol := source.symbol
    interval := .h1
    openTimeMs := decisionTimeMs
    closeTimeMs := decisionTimeMs + primaryMs - 1
    open' := price
    high := price
    low := price
    close := price
    baseVolume := source.baseVolume
    quoteVolume := source.quoteVolume
    tradeCount := source.tradeCount
    isClosed := true }
  (construct fields.postInit fun h => (⟨fields, h⟩ : Candle)).mapError fun _ =>
    ⟨"synthetic flat shock candle is invalid"⟩

/-- The price an exit is taken at, with its reason. -/
def _exitLevel (setup : LongSetup) (shock : Candle) : Option (String × FillReason) :=
  let opened := ofText shock.open'
  let low := ofText shock.low
  let high := ofText shock.high
  let stop := ofText setup.invalidationPrice
  let target := ofText setup.targetPrice
  if opened ≤ stop then some (shock.open', .stop)
  else if target ≤ opened then some (setup.targetPrice, .target)
  else if low ≤ stop ∧ target ≤ high then
    some (setup.invalidationPrice, .ambiguousStopPriority)
  else if low ≤ stop then some (setup.invalidationPrice, .stop)
  else if target ≤ high then some (setup.targetPrice, .target)
  else none

def _reference (shock : Candle) (quantity price : String) (reason : FillReason) :
    Except ShockError FillReference := do
  raiseIf (ofText shock.baseVolume < ofText quantity)
    ⟨"synthetic exit exceeds registered shock-bar base volume"⟩
  (FillReference.build ⟨.exitLong, shock.symbol, shock.openTimeMs, shock.openTimeMs, quantity,
    price, reason⟩).mapError fun _ => ⟨"synthetic exit reference is invalid"⟩

def _exitReference (strategyAction : StrategyAction) (setup : LongSetup) (shock : Candle)
    (quantity : String) : Except ShockError (Option FillReference) :=
  match strategyAction with
  | .exitLong => (_reference shock quantity shock.open' .scriptedExit).map some
  | .noTrade =>
      match _exitLevel setup shock with
      | none => .ok none
      | some (price, reason) => (_reference shock quantity price reason).map some
  | .enterLong => .error ⟨"shock Strategy action is invalid"⟩

/-- What selling a quantity at a mark leaves. -/
def liquidation (quantity mark feeBps slippageBps : Decimal) : Decimal :=
  let slipped := mul decimalPrecision mark
    (sub decimalPrecision 1 (quotient decimalPrecision slippageBps basisPoints))
  let gross := mul decimalPrecision quantity slipped
  mul decimalPrecision gross
    (sub decimalPrecision 1 (quotient decimalPrecision feeBps basisPoints))

def _liquidationEquity (cash quantity mark : Decimal) (spec : BacktestSpec) : Decimal :=
  add decimalPrecision cash
    (liquidation quantity mark spec.feeBpsDecimal spec.slippageBpsDecimal)

/-- The position and the equity right after the shock. -/
structure AfterShock where
  equityAfter : Decimal
  positionAfter : Decimal
  syntheticCost : Decimal
  exitReason : Option FillReason
  exitFill : Option PaperRunner.FillRecord
  timeToZero : Option ℤ

def _afterShock (source : Source) (shock : Candle) (spec : BacktestSpec) :
    Option FillReference → Except ShockError AfterShock
  | some reference => do
      let fill ← (applyCosts reference spec).mapError fun _ =>
        ⟨"synthetic exit cost application failed"⟩
      return {
        -- outside of the wide context: this sum keeps 28 digits
        equityAfter := add defaultPrecision source.cash fill.cashDelta
        positionAfter := 0
        syntheticCost := fill.totalCostQuote
        exitReason := reference.reason
        exitFill := PaperRunner._fillRecord fill
        timeToZero := some 0 }
  | none => .ok {
      equityAfter := _liquidationEquity source.cash source.quantity (ofText shock.open') spec
      positionAfter := source.quantity
      syntheticCost := 0
      exitReason := none
      exitFill := none
      timeToZero := none }

/-- The amounts of a scenario; `_plain` writes them into its record. -/
structure ShockResult extends AfterShock where
  scenario : Scenario
  strategy : BeforeShock
  sourceSpec : BacktestSpec
  spec : BacktestSpec
  shock : Candle
  equityBefore : Decimal
  syntheticDelta : Decimal
  excursion : Decimal

def _runScenario (strategy : Source → Except ShockError StrategyAction) (episode : Episode)
    (scenario : Scenario) : Except ShockError ShockResult := do
  let source ← _validateEpisode episode
  let decision ← _strategyBeforeShock strategy source
  let sourceSpec ← _sourceSpec source.symbol decision.decisionTimeMs
  let spec ← _scenarioSpec source.symbol decision.decisionTimeMs scenario.slippageMultiplier
  let price ← _syntheticPrice source.entryCandle.close scenario.adverseGapBps
  let shock ← _syntheticCandle source.entryCandle decision.decisionTimeMs price
  let equityBefore := _liquidationEquity source.cash source.quantity
    (ofText source.entryCandle.close) sourceSpec
  let reference ← _exitReference decision.action source.setup shock runnerQuantity
  let after ← _afterShock source shock spec reference
  let loss := (sub decimalPrecision equityBefore after.equityAfter).larger 0
  return {
    toAfterShock := after
    scenario, strategy := decision, sourceSpec, spec, shock, equityBefore
    syntheticDelta := sub decimalPrecision after.equityAfter equityBefore
    excursion := if 0 < equityBefore then quotient decimalPrecision loss equityBefore else 0 }

end Crisis

end TradingLab
