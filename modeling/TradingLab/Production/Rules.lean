import TradingLab.Production.Features

/-!
# The rules of the candidate families

A registered candidate is compiled over the bars of a symbol: for every bar
whether the features of the rule are available, and whether the position should
be held after the bar is complete. Two families have no exact rule and are
blocked.
-/

namespace TradingLab.Production
open Series

inductive Family where
  | trendCrossover
  | breakoutChannel
  | shortHorizonMeanReversion
  | crashRebound
  | volumeConfirmedDirection
  | sessionTimeEffect
  | liquidityConditionedEntry
  | leadLag
  | priceVolumeInteraction
  | simpleStatisticalDeviation
  | tradeCountConfirmedDirection
  | rangeCompressionBreakout
deriving Repr, DecidableEq

def Family.name : Family → String
  | .trendCrossover => "TREND_CROSSOVER"
  | .breakoutChannel => "BREAKOUT_CHANNEL"
  | .shortHorizonMeanReversion => "SHORT_HORIZON_MEAN_REVERSION"
  | .crashRebound => "CRASH_REBOUND"
  | .volumeConfirmedDirection => "VOLUME_CONFIRMED_DIRECTION"
  | .sessionTimeEffect => "SESSION_TIME_EFFECT"
  | .liquidityConditionedEntry => "LIQUIDITY_CONDITIONED_ENTRY"
  | .leadLag => "LEAD_LAG"
  | .priceVolumeInteraction => "PRICE_VOLUME_INTERACTION"
  | .simpleStatisticalDeviation => "SIMPLE_STATISTICAL_DEVIATION"
  | .tradeCountConfirmedDirection => "TRADE_COUNT_CONFIRMED_DIRECTION"
  | .rangeCompressionBreakout => "RANGE_COMPRESSION_BREAKOUT"

def Family.allowed : List Family :=
  [.trendCrossover, .breakoutChannel, .shortHorizonMeanReversion, .crashRebound,
    .volumeConfirmedDirection, .sessionTimeEffect, .liquidityConditionedEntry, .leadLag,
    .priceVolumeInteraction, .simpleStatisticalDeviation, .tradeCountConfirmedDirection,
    .rangeCompressionBreakout]

def Family.ofName? (name : String) : Option Family := Family.allowed.find? (·.name = name)

/-- Why a family has no exact rule. -/
def Family.blocked? : Family → Option String
  | .crashRebound => some ("Frozen rule says exit at max_hold_bars or recovery rule, but the " ++
      "recovery exit is not numerically specified.")
  | .rangeCompressionBreakout => some ("Frozen rule does not specify the rolling sample used for the " ++
      "compression quantile/lagged median range well enough to choose one " ++
      "without adding a degree of freedom.")
  | _ => none

/-- A candidate with the texts of its parameters. -/
structure Candidate where
  family : String
  state : String
  timeframe : String
  parameterVector : List (String × String)
deriving Repr, DecidableEq

/-- What a rule says of one bar where its features are available. -/
structure Signal where
  entry : Bool
  exit : Bool
deriving Repr, DecidableEq

section
variable {F : Type} (fl : Floats F)

def Candidate.parameter (candidate : Candidate) (key : String) : Except CompileFailure String :=
  ((candidate.parameterVector.lookup key).map Except.ok).getD (.error (.keyError key))

/-- The finite number of a parameter. -/
def num (text : String) : Except CompileFailure F :=
  match Decimal.Numeral.ofString text with
  | none => .error (.mcf "nonnumeric production parameter")
  | some (.nan true) => .error (.mcf "nonnumeric production parameter")
  | some (.finite d) =>
      let result := fl.ofDecimal d
      if fl.isFinite result then .ok result else .error (.mcf "nonfinite production parameter")
  | some _ => .error (.mcf "nonfinite production parameter")

def integer (text : String) : Except CompileFailure ℤ := do
  let x ← num fl text
  raiseIf (fl.eq (fl.ofInt (fl.truncate x)) x = false ∨ fl.lt x fl.one = true)
    (.mcf "invalid integer production parameter")
  return fl.truncate x

def Candidate.num (candidate : Candidate) (key : String) : Except CompileFailure F := do
  let text ← candidate.parameter key
  Production.num fl text

def Candidate.integer (candidate : Candidate) (key : String) : Except CompileFailure ℤ := do
  let text ← candidate.parameter key
  Production.integer fl text

end

/-- Whether the position is held after a bar. -/
def nextState (held : Bool) : Option Signal → Bool
  | none => held
  | some signal => if held && signal.exit then false else if !held && signal.entry then true else held

/-- The states along the bars. -/
def stateFrom : Bool → List (Option Signal) → List Bool
  | _, [] => []
  | held, signal :: signals => nextState held signal :: stateFrom (nextState held signal) signals

section
variable {F : Type} (fl : Floats F)

/-- Cross above and below, from one bar to the next. -/
def crossAt (fast slow : List (Option F)) : ℕ → Option Signal
  | 0 => none
  | i + 1 => do
      let fastBefore ← valueAt fast i
      let slowBefore ← valueAt slow i
      let fastNow ← valueAt fast (i + 1)
      let slowNow ← valueAt slow (i + 1)
      return {
        entry := fl.lt slowNow fastNow && fl.le fastBefore slowBefore
        exit := fl.lt fastNow slowNow && fl.le slowBefore fastBefore }

def Signal.ofCondition (condition : Bool) : Signal := ⟨condition, !condition⟩

section
variable (candidate : Candidate) (cadence : ℤ) (rows : List (Row F))

def trendCrossover : Except CompileFailure (List (Option Signal)) := do
  let fastWindow ← candidate.integer fl "fast_window"
  let fast ← rolling fl cadence rows .closes fastWindow 0 .mean
  let slowWindow ← candidate.integer fl "slow_window"
  let slow ← rolling fl cadence rows .closes slowWindow 0 .mean
  return indexed rows.length (crossAt fl fast slow)

def breakoutAt (buffer : F) (high low : List (Option F)) (i : ℕ) : Option Signal := do
  let row ← rows[i]?
  let h ← valueAt high i
  let l ← valueAt low i
  return {
    entry := fl.lt (fl.mul h (fl.add fl.one buffer)) row.close
    exit := fl.lt row.close l }

def breakoutChannel : Except CompileFailure (List (Option Signal)) := do
  let entryWindow ← candidate.integer fl "entry_window"
  let high ← rolling fl cadence rows .highs entryWindow 1 .max
  let exitWindow ← candidate.integer fl "exit_window"
  let low ← rolling fl cadence rows .lows exitWindow 1 .min
  let buffer ← candidate.num fl "breakout_buffer_fraction"
  return indexed rows.length (breakoutAt fl rows buffer high low)

/-- The close of the bar before is above the lagged average, where there is a filter. -/
def trendOkAt (laggedMa200 : Option (List (Option F))) (i : ℕ) : Option Bool :=
  match laggedMa200 with
  | none => some true
  | some average =>
      if i < 1 then none
      else do
        let mean ← valueAt average i
        let before ← rows[i - 1]?
        return fl.lt mean before.close

def meanReversionAt (entryZ exitZ : F) (z : List (Option F)) (laggedMa200 : Option (List (Option F)))
    (i : ℕ) : Option Signal := do
  let value ← valueAt z i
  let trendOk ← trendOkAt fl rows laggedMa200 i
  return {
    entry := fl.le value (fl.neg entryZ) && trendOk
    exit := fl.le (fl.neg exitZ) value || !trendOk }

/-- The lagged average of the filter, where the candidate has one. -/
def laggedMa200 : Except CompileFailure (Option (List (Option F))) :=
  if candidate.parameterVector.lookup "trend_filter" = some "MA200_UP_ONLY" then
    (rolling fl cadence rows .closes 200 1 .mean).map some
  else .ok none

def meanReversion : Except CompileFailure (List (Option Signal)) := do
  let window ← candidate.integer fl "lookback"
  let z ← zscoreVsLagged fl cadence rows window
  let entryZ ← candidate.num fl "entry_z"
  let exitZ ← candidate.num fl "exit_z"
  let average ← laggedMa200 fl candidate cadence rows
  return indexed rows.length (meanReversionAt fl rows entryZ exitZ z average)

/-- A return above a threshold, on a value above a multiple of its lagged average. -/
def confirmedAt (column : Column) (threshold multiple : F) (ret average : List (Option F)) (i : ℕ) :
    Option Signal := do
  let row ← rows[i]?
  let change ← valueAt ret i
  let mean ← valueAt average i
  return .ofCondition (fl.lt threshold change && fl.lt (fl.mul multiple mean) (column.of row))

def confirmed (column : Column) (lookbackKey windowKey thresholdKey multipleKey : String) :
    Except CompileFailure (List (Option Signal)) := do
  let lookback ← candidate.integer fl lookbackKey
  let ret ← laggedReturn fl cadence rows lookback
  let window ← candidate.integer fl windowKey
  let average ← rolling fl cadence rows column window 1 .mean
  let threshold ← candidate.num fl thresholdKey
  let multiple ← candidate.num fl multipleKey
  return indexed rows.length (confirmedAt fl rows column threshold multiple ret average)

def volumeConfirmedDirection : Except CompileFailure (List (Option Signal)) :=
  confirmed fl candidate cadence rows .baseVolume "return_lookback" "volume_window" "return_threshold"
    "volume_multiple"

def priceVolumeInteraction : Except CompileFailure (List (Option Signal)) :=
  confirmed fl candidate cadence rows .baseVolume "price_lookback" "volume_window" "price_threshold"
    "volume_multiple"

def tradeCountConfirmedDirection : Except CompileFailure (List (Option Signal)) :=
  confirmed fl candidate cadence rows .tradeCount "return_lookback" "trade_count_window"
    "return_threshold" "trade_count_multiple"

/-- The hour of a timestamp, in UTC. -/
def hourOf (t : ℤ) : ℤ := t / 3600000 % 24

def sessionAt (threshold : F) (start last : ℤ) (ret : List (Option F)) (i : ℕ) : Option Signal := do
  let row ← rows[i]?
  let change ← valueAt ret i
  return .ofCondition (decide (start ≤ hourOf row.time ∧ hourOf row.time < last) &&
    fl.lt threshold change)

def sessionTimeEffect : Except CompileFailure (List (Option Signal)) := do
  let lookback ← candidate.integer fl "return_lookback"
  let ret ← laggedReturn fl cadence rows lookback
  let threshold ← candidate.num fl "return_threshold"
  let first ← candidate.num fl "session_start_utc"
  let start := fl.truncate first
  let length ← candidate.integer fl "session_length_hours"
  let last := start + length
  raiseIf (¬ (0 ≤ start ∧ start < last ∧ last ≤ 24)) (.mcf "invalid frozen UTC session")
  return indexed rows.length (sessionAt fl rows threshold start last ret)

def liquidityAt (floor : F) (ret ranks : List (Option F)) (i : ℕ) : Option Signal := do
  let change ← valueAt ret i
  let rank ← valueAt ranks i
  return .ofCondition (fl.lt fl.zero change && fl.le floor rank)

def liquidityConditionedEntry (liquidityPercentile : Option (List (Option F))) :
    Except CompileFailure (List (Option Signal)) := do
  match liquidityPercentile with
  | none => .error (.mcf "liquidity-conditioned family requires bound percentile series")
  | some ranks =>
      raiseIf (ranks.length ≠ rows.length)
        (.mcf "liquidity-conditioned family requires bound percentile series")
      let lookback ← candidate.integer fl "signal_lookback"
      let ret ← laggedReturn fl cadence rows lookback
      let floor ← candidate.num fl "liquidity_rank_floor"
      return indexed rows.length (liquidityAt fl floor ret ranks)

def leadLagAt (binding : ProductionUniverseBinding) (symbol peer : String) (momentum : Bool)
    (threshold : F) (returns : List (Option F)) (i : ℕ) : Option Signal := do
  let row ← rows[i]?
  let change ← valueAt returns i
  if binding.isMember symbol row.time && binding.isMember peer row.time then
    return .ofCondition (if momentum then fl.lt threshold change else fl.lt change (fl.neg threshold))
  else none

end

def leadLag (candidate : Candidate) (feed : Feed F) (universeBinding : Option ProductionUniverseBinding) :
    Except CompileFailure (List (Option Signal)) := do
  let bars := feed.bars
  let peer ← candidate.parameter "peer"
  let lag ← candidate.integer fl "lag_bars"
  let threshold ← candidate.num fl "peer_return_threshold"
  let mode ← candidate.parameter "response_mode"
  if peer = bars.symbol then
    return indexed bars.rows.length fun _ => none
  else
    match universeBinding with
    | none => .error (.mcf "lead-lag family requires point-in-time universe binding")
    | some binding =>
        let returns := peerReturn fl bars.timeframe.cadenceMs bars.rows feed.peers peer lag
        raiseIf (mode ≠ "MOMENTUM" ∧ mode ≠ "REVERSAL") (.mcf "invalid lead-lag response mode")
        return indexed bars.rows.length
          (leadLagAt fl bars.rows binding bars.symbol peer (mode = "MOMENTUM") threshold returns)

/-- The signals of a rule along the bars. -/
def signals (candidate : Candidate) (family : Family) (feed : Feed F)
    (liquidityPercentile : Option (List (Option F)))
    (universeBinding : Option ProductionUniverseBinding) : Except CompileFailure (List (Option Signal)) :=
  let cadence := feed.bars.timeframe.cadenceMs
  let rows := feed.bars.rows
  match family with
  | .trendCrossover => trendCrossover fl candidate cadence rows
  | .breakoutChannel => breakoutChannel fl candidate cadence rows
  | .shortHorizonMeanReversion => meanReversion fl candidate cadence rows
  | .simpleStatisticalDeviation => meanReversion fl candidate cadence rows
  | .volumeConfirmedDirection => volumeConfirmedDirection fl candidate cadence rows
  | .sessionTimeEffect => sessionTimeEffect fl candidate cadence rows
  | .liquidityConditionedEntry =>
      liquidityConditionedEntry fl candidate cadence rows liquidityPercentile
  | .leadLag => leadLag fl candidate feed universeBinding
  | .priceVolumeInteraction => priceVolumeInteraction fl candidate cadence rows
  | .tradeCountConfirmedDirection => tradeCountConfirmedDirection fl candidate cadence rows
  | family => .error (.ruleBlocked (family.name ++ ": no exact production rule compiler"))

/-- The bar of a series, with the state after it. -/
def Row.compiled (row : Row F) (signal : Option Signal) (desired : Bool) : Bar where
  time := row.time
  opening := fl.toDecimal row.opening
  close := fl.toDecimal row.close
  desiredState := desired
  featureAvailable := signal.isSome

/-- The bars with the states of a rule. -/
def compiledBars (rows : List (Row F)) (signals : List (Option Signal)) : List Bar :=
  (rows.zip (signals.zip (stateFrom false signals))).map fun (row, signal, desired) =>
    row.compiled fl signal desired

/-- Compile a registered candidate to the desired state after every bar. -/
def compileCandidate (candidate : Candidate) (feed : Feed F)
    (liquidityPercentile : Option (List (Option F)))
    (universeBinding : Option ProductionUniverseBinding) : Except CompileFailure SeriesFields :=
  match Family.ofName? candidate.family with
  | none => .error (.mcf "candidate family outside frozen MCF-PROD-001 budget")
  | some family =>
      match family.blocked? with
      | some reason => .error (.ruleBlocked (family.name ++ ": " ++ reason))
      | none => do
          raiseIf (candidate.state ≠ "PRE_OUTCOME_REGISTERED")
            (.mcf "candidate not registered before outcome")
          raiseIf (candidate.timeframe ≠ feed.bars.timeframe.name)
            (.mcf "candidate/data timeframe mismatch")
          let signals ← signals fl candidate family feed liquidityPercentile universeBinding
          return {
            symbol := feed.bars.symbol
            timeframe := feed.bars.timeframe
            bars := compiledBars fl feed.bars.rows signals }

end

end TradingLab.Production
