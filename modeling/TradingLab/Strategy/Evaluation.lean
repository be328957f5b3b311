import TradingLab.Backtest.FillEngine
import TradingLab.Strategy.Contracts
import TradingLab.Strategy.Features

/-!
# Evaluating a context

What the two candidates share: the regime of the market, the checks of their
arguments, the confirmation on the context interval and the bracket of an entry.
-/

/-!
## The regime of a market

The last fifty-one closed candles of the regime interval tell whether the market
trends. The result is a function of the context alone.
-/

namespace TradingLab

open Decimal

namespace Regime

def version : String := "SMA_4H_V1"
def fastPeriod : ℕ := 20
def slowPeriod : ℕ := 50
def warmup : ℕ := 51
def spreadBoundary : Decimal := ofText "0.002"
def rangeSlopeBoundary : Decimal := ofText "0.0005"

end Regime

/-- A regime cannot be told; a division by zero passes through. -/
inductive RegimeError where
  | invalid (message : String)
  | divisionByZero
deriving Repr, DecidableEq

inductive MarketRegime where
  | trendUp
  | trendDown
  | range
  | unknown
deriving Repr, DecidableEq

def MarketRegime.value : MarketRegime → String
  | trendUp => "TREND_UP"
  | trendDown => "TREND_DOWN"
  | range => "RANGE"
  | unknown => "UNKNOWN"

inductive RegimeReason where
  | insufficientHistory
  | upAligned
  | downAligned
  | averagesConverged
  | conflictingEvidence
deriving Repr, DecidableEq

def RegimeReason.value : RegimeReason → String
  | insufficientHistory => "INSUFFICIENT_HISTORY"
  | upAligned => "UP_ALIGNED"
  | downAligned => "DOWN_ALIGNED"
  | averagesConverged => "AVERAGES_CONVERGED"
  | conflictingEvidence => "CONFLICTING_EVIDENCE"

/-- Every part of a context passes its own check again. -/
def StrategyContext.Reconstructs (c : StrategyContext) : Prop :=
  c.identity.toFields.postInit = .ok () ∧ c.snapshot.toFields.postInit = .ok () ∧
    c.toFields.postInit = .ok ()

theorem StrategyContext.reconstructs (c : StrategyContext) : c.Reconstructs :=
  ⟨c.identity.valid, c.snapshot.valid, c.valid⟩

instance (c : StrategyContext) : Decidable c.Reconstructs := .isTrue c.reconstructs

structure RegimeMeasure where
  regime : MarketRegime
  reason : RegimeReason
  fastSma : Option Decimal := none
  slowSma : Option Decimal := none
  relativeSpread : Option Decimal := none
  relativeSlope : Option Decimal := none
deriving Repr, DecidableEq

namespace Regime

def _classify (price fast _slow spread slope : Decimal) : MarketRegime × RegimeReason :=
  if spreadBoundary < spread ∧ 0 < slope ∧ fast < price then (.trendUp, .upAligned)
  else if spread < neg decimalPrecision spreadBoundary ∧ slope < 0 ∧ price < fast then
    (.trendDown, .downAligned)
  else if absolute decimalPrecision spread ≤ spreadBoundary ∧
      absolute decimalPrecision slope ≤ rangeSlopeBoundary then
    (.range, .averagesConverged)
  else (.unknown, .conflictingEvidence)

def _divide (a b : Decimal) : Except RegimeError Decimal :=
  match div? decimalPrecision a b with
  | some d => .ok d
  | none => .error .divisionByZero

def _measure (context : StrategyContext) : Except RegimeError RegimeMeasure := do
  raiseIf (¬ context.Reconstructs) (.invalid "Regime context failed point-in-time validation")
  let candles := context.snapshot.regime
  if candles.length < warmup then
    return { regime := .unknown, reason := .insufficientHistory }
  else
    let closes := (candles.rtake warmup).map fun c => ofText c.close
    let fast := Features._mean (closes.rtake fastPeriod) fastPeriod
    let slow := Features._mean (closes.rtake slowPeriod) slowPeriod
    let previousSlow := Features._mean closes.dropLast slowPeriod
    let spread ← _divide (sub decimalPrecision fast slow) slow
    let slope ← _divide (sub decimalPrecision slow previousSlow) previousSlow
    let price := closes.getLast?.getD 0
    let (regime, reason) := _classify price fast slow spread slope
    return {
      regime, reason
      fastSma := some fast
      slowSma := some slow
      relativeSpread := some spread
      relativeSlope := some slope }

end Regime

/-- A measure with the context it was taken of. -/
structure RegimeResult extends RegimeMeasure where
  context : StrategyContext
  measured : Regime._measure context = .ok toRegimeMeasure

def classifyRegime (context : StrategyContext) : Except RegimeError RegimeResult :=
  match h : Regime._measure context with
  | .ok m => .ok ⟨m, context, h⟩
  | .error e => .error e

namespace Regime
variable {context : StrategyContext} {r : RegimeResult}

theorem context_of_classify (h : classifyRegime context = .ok r) : r.context = context := by
  unfold classifyRegime at h
  split at h
  · cases h
    rfl
  · cases h

/-- History is missing exactly below the warm-up. -/
theorem insufficient_iff (r : RegimeResult) :
    r.reason = .insufficientHistory ↔ r.context.snapshot.regime.length < warmup := by
  have h := r.measured
  unfold _measure at h
  rw [raiseIf_bind_eq_ok] at h
  obtain ⟨-, h⟩ := h
  dsimp only at h
  split at h
  · rename_i hshort
    have hm := Except.ok.inj h
    exact ⟨fun _ => hshort, fun _ => by rw [← hm]⟩
  · rename_i hlong
    obtain ⟨spread, -, h⟩ := bind_eq_ok.mp h
    obtain ⟨slope, -, h⟩ := bind_eq_ok.mp h
    have hm := Except.ok.inj h
    refine ⟨fun hreason => ?_, fun hshort => (hlong hshort).elim⟩
    rw [← hm] at hreason
    unfold _classify at hreason
    split_ifs at hreason

end Regime

end TradingLab

/-!
## Features, confirmation and bracket

A candidate sees enough once every feature it needs is ready.
-/

namespace TradingLab

open Decimal

/-- What an evaluation raises: its own error, that of a contract it builds, or a signal of the
decimal context. -/
inductive EvaluatorError where
  | strategy (message : String)
  | contract (error : StrategyContractError)
  | decimal
deriving Repr, DecidableEq

namespace Evaluation

def rewardRisk : Decimal := ofText "2"
def stopAtrFraction : Decimal := ofText "0.25"
def atrPeriod : ℕ := 14

/-- The setup of the open position, and none without a position. -/
def _validated (identity : StrategyIdentity) (label : String) (context : StrategyContext)
    (inPosition : Bool) (activeSetup : Option LongSetup) :
    Except EvaluatorError (Option LongSetup) := do
  raiseIf (context.identity ≠ identity ∨ (inPosition = true ∧ activeSetup = none) ∨
      (inPosition = false ∧ activeSetup ≠ none))
    (.strategy (label ++ " state or identity is invalid"))
  raiseIf (¬ context.Reconstructs ∨ ∃ setup ∈ activeSetup, setup.toFields.postInit ≠ .ok ())
    (.strategy (label ++ " context failed validation"))
  return activeSetup

def _regime (label : String) (context : StrategyContext) :
    Except EvaluatorError RegimeResult :=
  (classifyRegime context).mapError fun
    | .invalid _ => .strategy (label ++ " feature evaluation failed")
    | .divisionByZero => .decimal

def _featureOf (message : String) (result : Except FeatureError FeatureResult) :
    Except EvaluatorError FeatureResult :=
  result.mapError fun _ => .strategy message

def _decision (f : StrategyDecision.Fields) : Except EvaluatorError StrategyDecision :=
  (StrategyDecision.build f).mapError .contract

def _noTrade (context : StrategyContext) (reason : DecisionReason) :
    Except EvaluatorError StrategyDecision :=
  _decision { context, action := .noTrade, reason }

def _exit (context : StrategyContext) : Except EvaluatorError StrategyDecision :=
  _decision { context, action := .exitLong, reason := .strategyExit }

/-- The last candle rose, and closed above the one before it. -/
def _confirmed (candles : List Candle) : Prop :=
  match candles.reverse with
  | latest :: previous :: _ =>
      ofText latest.open' < ofText latest.close ∧ ofText previous.close < ofText latest.close
  | _ => False

instance (candles : List Candle) : Decidable (_confirmed candles) := by
  unfold _confirmed
  split <;> infer_instance

def _text (prec : ℕ) (d : Decimal) : Except EvaluatorError String :=
  match _plain prec d with
  | some text => .ok text
  | none => .error .decimal

/-- An entry whose stop lies a part of the volatility below a low. -/
def _enter (context : StrategyContext) (reason : DecisionReason) (close low volatility : Decimal) :
    Except EvaluatorError StrategyDecision := do
  let raw := sub decimalPrecision low (mul decimalPrecision volatility stopAtrFraction)
  let text ← _text decimalPrecision raw
  let invalidation := ofText text
  let risk := sub decimalPrecision close invalidation
  let target := add decimalPrecision close (mul decimalPrecision risk rewardRisk)
  if invalidation ≤ 0 ∨ risk ≤ 0 then _noTrade context .setupAbsent
  else
    let referencePrice ← _text defaultPrecision close
    let invalidationPrice ← _text defaultPrecision invalidation
    let targetPrice ← _text defaultPrecision target
    let setup ← (LongSetup.build { referencePrice, invalidationPrice, targetPrice }).mapError
      .contract
    _decision { context, action := .enterLong, reason, setup := some setup }

/-- Every history is as long as the features of a candidate require. -/
structure Enough (warmup : ℕ) (context : StrategyContext) : Prop where
  regime : Regime.warmup ≤ context.snapshot.regime.length
  primary : warmup ≤ context.snapshot.primary.length
  confirmation : 2 ≤ context.snapshot.context.length

/-- A decision of a context, with the position it was asked about. -/
structure Returned (warmup : ℕ) (context : StrategyContext) (inPosition : Bool)
    (decision : StrategyDecision) : Prop where
  same : decision.context = context
  held : inPosition = true → (decision.reason = .insufficientHistory ∧ ¬ Enough warmup context) ∨
    decision.action = .exitLong ∨ (decision.action = .noTrade ∧ decision.reason = .holdPosition)
  flat : inPosition = false → (decision.action = .enterLong ∧ Enough warmup context) ∨
    (decision.action = .noTrade ∧ decision.reason ≠ .holdPosition)

variable {context : StrategyContext} {reason : DecisionReason} {d : StrategyDecision}
  {close low volatility : Decimal} {label : String} {identity : StrategyIdentity}
  {inPosition : Bool} {activeSetup position : Option LongSetup}

theorem validated_eq_ok
    (h : _validated identity label context inPosition activeSetup = .ok position) :
    context.identity = identity ∧ (inPosition = true ↔ position ≠ none) := by
  unfold _validated at h
  rw [raiseIf_bind_eq_ok, raiseIf_bind_eq_ok] at h
  obtain ⟨hstate, -, h⟩ := h
  cases h
  simp only [not_or, not_and, not_not] at hstate
  refine ⟨hstate.1, ?_⟩
  cases inPosition with
  | false => simpa using hstate.2.2
  | true => simpa using hstate.2.1

theorem decision_eq_ok {f : StrategyDecision.Fields} (h : _decision f = .ok d) : d.toFields = f := by
  obtain ⟨-, rfl⟩ := construct_eq_ok.mp (mapError_eq_ok.mp h)
  rfl

theorem noTrade_eq_ok (h : _noTrade context reason = .ok d) :
    d.context = context ∧ d.action = .noTrade ∧ d.reason = reason := by
  rw [decision_eq_ok h]
  exact ⟨rfl, rfl, rfl⟩

theorem exit_eq_ok (h : _exit context = .ok d) : d.context = context ∧ d.action = .exitLong := by
  rw [decision_eq_ok h]
  exact ⟨rfl, rfl⟩

/-- A decision without a position to hold. -/
def Fresh (context : StrategyContext) (d : StrategyDecision) : Prop :=
  d.context = context ∧
    (d.action = .enterLong ∨ (d.action = .noTrade ∧ d.reason ≠ .holdPosition))

theorem fresh_of_noTrade (h : _noTrade context reason = .ok d) (hr : reason ≠ .holdPosition) :
    Fresh context d := by
  obtain ⟨hcontext, haction, rfl⟩ := noTrade_eq_ok h
  exact ⟨hcontext, .inr ⟨haction, hr⟩⟩

theorem enter_eq_ok (h : _enter context reason close low volatility = .ok d) : Fresh context d := by
  unfold _enter at h
  obtain ⟨text, -, h⟩ := bind_eq_ok.mp h
  dsimp only at h
  split at h
  · exact fresh_of_noTrade h (by decide)
  · obtain ⟨_, -, h⟩ := bind_eq_ok.mp h
    obtain ⟨_, -, h⟩ := bind_eq_ok.mp h
    obtain ⟨_, -, h⟩ := bind_eq_ok.mp h
    obtain ⟨setup, -, h⟩ := bind_eq_ok.mp h
    rw [Fresh, decision_eq_ok h]
    exact ⟨rfl, .inl rfl⟩

theorem regime_eq_ok {r : RegimeResult} (h : _regime label context = .ok r) :
    r.reason = .insufficientHistory ↔ context.snapshot.regime.length < Regime.warmup := by
  rw [Regime.insufficient_iff, Regime.context_of_classify (mapError_eq_ok.mp h)]

/-- A decision for an open position. -/
def Held (context : StrategyContext) (d : StrategyDecision) : Prop :=
  d.context = context ∧
    (d.action = .exitLong ∨ (d.action = .noTrade ∧ d.reason = .holdPosition))

/-- An evaluation first asks whether it has seen enough, and then whether a position is open. -/
theorem returned_of_ready {warmup : ℕ} {ready : Prop} [Decidable ready]
    {hold : ready → LongSetup → Except EvaluatorError StrategyDecision}
    {search : ready → Except EvaluatorError StrategyDecision}
    (h : (if hr : ready then
        match position with
        | some setup => hold hr setup
        | none => search hr
      else _noTrade context .insufficientHistory) = .ok d)
    (henough : Enough warmup context ↔ ready) (hheld : inPosition = true ↔ position ≠ none)
    (hhold : ∀ hr setup, hold hr setup = .ok d → Held context d)
    (hsearch : ∀ hr, search hr = .ok d → Fresh context d) :
    Returned warmup context inPosition d := by
  split at h
  · rename_i hr
    cases position with
    | some setup =>
      obtain ⟨hsame, hdecision⟩ := hhold hr setup h
      refine ⟨hsame, fun _ => .inr hdecision, fun hflat => ?_⟩
      simp [hflat] at hheld
    | none =>
      obtain ⟨hsame, hdecision⟩ := hsearch hr h
      refine ⟨hsame, fun hopen => by simp [hopen] at hheld, fun _ => ?_⟩
      exact hdecision.imp (fun henter => ⟨henter, henough.mpr hr⟩) id
  · rename_i hr
    obtain ⟨hsame, haction, hreason⟩ := noTrade_eq_ok h
    refine ⟨hsame, fun _ => .inl ⟨hreason, fun e => hr (henough.mp e)⟩, fun _ => .inr ⟨haction, ?_⟩⟩
    rw [hreason]
    decide

theorem closed_of_validateCandles {symbol : Symbol} {interval : Interval} {t : ℤ}
    {previous : Option ℤ} {candles : List Candle}
    (h : _validateCandles symbol interval t previous candles = .ok ()) :
    ∀ c ∈ candles, c.closeTimeMs < t := by
  induction candles generalizing previous with
  | nil => exact nofun
  | cons c candles ih =>
    unfold _validateCandles at h
    simp only [raiseIf_bind_eq_ok, not_le] at h
    obtain ⟨-, hclose, -, hrest⟩ := h
    intro x hx
    rcases List.mem_cons.mp hx with rfl | hx
    · exact hclose
    · exact ih hrest x hx

theorem closed_primary (s : MarketSnapshot) : ∀ c ∈ s.primary, c.closeTimeMs < s.decisionTimeMs := by
  have h := s.valid
  unfold MarketSnapshot.Fields.postInit at h
  rw [raiseIf_bind_eq_ok, unit_bind_eq_ok] at h
  have hprimary := h.2.1
  unfold _validateHistory at hprimary
  rw [raiseIf_bind_eq_ok, unit_bind_eq_ok] at hprimary
  exact closed_of_validateCandles hprimary.2.1

theorem available_iff {name message : String} {period required : ℕ}
    {measure : List Candle → Decimal} {candles : List Candle} {r : FeatureResult}
    (hsub : ∀ c ∈ candles, c ∈ context.snapshot.primary)
    (h : _featureOf message
      (Features._feature name period required measure candles context.decisionTimeMs) = .ok r) :
    r.available ↔ required ≤ candles.length := by
  rw [Features.feature_available (mapError_eq_ok.mp h), List.filter_eq_self.mpr]
  intro c hc
  exact decide_eq_true (closed_primary context.snapshot c (hsub c hc))

end Evaluation

end TradingLab
