import TradingLab.Risk.State

/-!
# Portfolio observations

A managed state follows from its predecessor and one observation. Observations
are consumed in order; a position is left as it is or closed completely, and a
session starts at midnight, apart from every close.
-/

namespace TradingLab

namespace RiskState

def utcDayMilliseconds : ℤ := 86400000

end RiskState

inductive CloseOutcome where
  | noClose
  | win
  | loss
  | breakeven
deriving Repr, DecidableEq

def CloseOutcome.value : CloseOutcome → String
  | noClose => "NO_CLOSE"
  | win => "WIN"
  | loss => "LOSS"
  | breakeven => "BREAKEVEN"

/-- The sign of the realized result that an outcome stands for. -/
def CloseOutcome.matches (pnl : Decimal) : CloseOutcome → Prop
  | noClose => pnl ≈ 0
  | win => 0 < pnl
  | loss => pnl < 0
  | breakeven => pnl ≈ 0

instance (pnl : Decimal) (outcome : CloseOutcome) : Decidable (outcome.matches pnl) := by
  cases outcome <;> unfold CloseOutcome.matches <;> infer_instance

namespace PortfolioObservation

structure Fields where
  symbol : Symbol
  sequence : ℤ
  decisionTimeMs : ℤ
  equityQuote : String
  cashQuote : String
  positionQuantity : String
  markPrice : String
  realizedPnlDeltaQuote : String := "0"
  closeOutcome : CloseOutcome := .noClose
  startNewSession : Bool := false
deriving Repr, DecidableEq

def Fields.postInit (o : Fields) : Except RiskStateError Unit := do
  raiseIf (¬ (0 ≤ o.sequence ∧ o.sequence ≤ 1000000000)) ⟨"Observation sequence is invalid"⟩
  raiseIf (o.decisionTimeMs < 0 ∨ o.decisionTimeMs % Interval.milliseconds .h1 ≠ 0)
    ⟨"Observation time must be an aligned 1h boundary"⟩
  let _ ← RiskState._number o.equityQuote "equity_quote" true false
  let _ ← RiskState._number o.cashQuote "cash_quote" false false
  let _ ← RiskState._number o.positionQuantity "position_quantity" false false
  let _ ← RiskState._number o.markPrice "mark_price" true false
  let pnl ← RiskState._number o.realizedPnlDeltaQuote "realized_pnl_delta_quote" false true
  raiseIf (¬ o.closeOutcome.matches pnl) ⟨"Close outcome and realized PnL disagree"⟩

end PortfolioObservation

structure PortfolioObservation extends PortfolioObservation.Fields where
  valid : toFields.postInit = .ok ()
deriving DecidableEq

namespace PortfolioObservation

/-- The facts about the numbers that the constructor guarantees. -/
structure Facts (o : Fields) : Prop where
  equity : decimalPattern o.equityQuote ∧ 0 < Decimal.ofText o.equityQuote
  cash : decimalPattern o.cashQuote
  quantity : decimalPattern o.positionQuantity
  mark : decimalPattern o.markPrice ∧ 0 < Decimal.ofText o.markPrice
  pnl : signedDecimalPattern o.realizedPnlDeltaQuote
  outcome : o.closeOutcome.matches (Decimal.ofText o.realizedPnlDeltaQuote)

theorem facts (o : PortfolioObservation) : Facts o.toFields := by
  have h := o.valid
  unfold Fields.postInit at h
  simp only [bind_eq_ok, raiseIf_eq_ok, exists_const, RiskState._number_eq_ok, if_true, if_false,
    Bool.false_eq_true, false_implies, true_implies, true_and, not_not] at h
  obtain ⟨-, -, eq, ⟨peq, zeq, rfl⟩, ca, ⟨pca, rfl⟩, qu, ⟨pqu, rfl⟩, ma, ⟨pma, zma, rfl⟩,
    pn, ⟨ppn, rfl⟩, hout⟩ := h
  exact ⟨⟨peq, zeq⟩, pca, pqu, ⟨pma, zma⟩, ppn, hout⟩

def payload (o : PortfolioObservation) : Json := .dict [
  ("schema_version", .int 1),
  ("symbol", .str o.symbol.value),
  ("sequence", .int o.sequence),
  ("decision_time_ms", .int o.decisionTimeMs),
  ("equity_quote", .str o.equityQuote),
  ("cash_quote", .str o.cashQuote),
  ("position_quantity", .str o.positionQuantity),
  ("mark_price", .str o.markPrice),
  ("realized_pnl_delta_quote", .str o.realizedPnlDeltaQuote),
  ("close_outcome", .str o.closeOutcome.value),
  ("start_new_session", .bool o.startNewSession)]

def observationSha256 (o : PortfolioObservation) : String := o.payload.sha256

end PortfolioObservation

namespace RiskState
open Decimal (ofText)

/-- The part of the next state that its predecessor decides. -/
structure Carried where
  sessionStartTime : ℤ
  sessionStartEquity : Decimal
  sessionPnl : Decimal
  peak : Decimal
  consecutiveLosses : ℤ
  previousSha : Option String

def _initial (observation : PortfolioObservation) : Except RiskStateError Carried := do
  let equity := ofText observation.equityQuote
  raiseIf (observation.sequence ≠ 0 ∨ observation.startNewSession ≠ true)
    ⟨"Initial state requires sequence zero and a session start"⟩
  raiseIf (observation.closeOutcome ≠ .noClose ∨ ¬ ofText observation.positionQuantity ≈ 0)
    ⟨"Initial state must be flat with no close outcome"⟩
  return ⟨observation.decisionTimeMs, equity, 0, equity, 0, none⟩

/-- The position is kept as it is, or closed completely. -/
def _checkClose (previous : ManagedPortfolioState) (observation : PortfolioObservation) :
    Except RiskStateError Unit :=
  let quantity := ofText observation.positionQuantity
  let priorQuantity := ofText previous.positionQuantity
  if observation.closeOutcome = .noClose then
    raiseIf (0 < priorQuantity ∧ ¬ quantity ≈ priorQuantity)
      ⟨"An open position changed without a close outcome"⟩
  else
    raiseIf (priorQuantity ≤ 0 ∨ ¬ quantity ≈ 0)
      ⟨"A close outcome must close the complete open position"⟩

/-- The session after the observation: its start, its first equity and its result. -/
def _session (previous : ManagedPortfolioState) (observation : PortfolioObservation) :
    Except RiskStateError (ℤ × Decimal × Decimal) := do
  if observation.startNewSession then
    raiseIf (observation.decisionTimeMs % utcDayMilliseconds ≠ 0)
      ⟨"A new session must start at 00:00 UTC"⟩
    raiseIf (observation.closeOutcome ≠ .noClose)
      ⟨"Session reset and close outcome require separate observations"⟩
    return (observation.decisionTimeMs, ofText observation.equityQuote, 0)
  else
    return (previous.sessionStartTimeMs, ofText previous.sessionStartEquityQuote,
      Decimal.add precision (ofText previous.sessionRealizedPnlQuote)
        (ofText observation.realizedPnlDeltaQuote))

def _losses (previous : ℤ) : CloseOutcome → ℤ
  | .loss => previous + 1
  | .win => 0
  | .breakeven => 0
  | .noClose => previous

def _carried (previous : ManagedPortfolioState) (observation : PortfolioObservation) :
    Except RiskStateError Carried := do
  raiseIf (observation.symbol ≠ previous.symbol) ⟨"State symbol cannot change"⟩
  raiseIf (observation.sequence ≠ previous.sequence + 1)
    ⟨"State sequence is duplicate or missing"⟩
  raiseIf (observation.decisionTimeMs ≤ previous.decisionTimeMs)
    ⟨"State observation is stale or out of order"⟩
  _checkClose previous observation
  let (sessionStartTime, sessionStartEquity, sessionPnl) ← _session previous observation
  return {
    sessionStartTime, sessionStartEquity, sessionPnl
    peak := (ofText previous.peakEquityQuote).larger (ofText observation.equityQuote)
    consecutiveLosses := _losses previous.consecutiveLosses observation.closeOutcome
    previousSha := some previous.stateSha256 }

def nextFields (observation : PortfolioObservation) (carried : Carried) :
    ManagedPortfolioState.Fields :=
  let quantity := ofText observation.positionQuantity
  let mark := ofText observation.markPrice
  { symbol := observation.symbol
    sequence := observation.sequence
    decisionTimeMs := observation.decisionTimeMs
    sessionStartTimeMs := carried.sessionStartTime
    sessionStartEquityQuote := _canonical carried.sessionStartEquity
    equityQuote := _canonical (ofText observation.equityQuote)
    cashQuote := _canonical (ofText observation.cashQuote)
    positionQuantity := _canonical quantity
    markPrice := _canonical mark
    peakEquityQuote := _canonical carried.peak
    sessionRealizedPnlQuote := _canonical carried.sessionPnl
    consecutiveLosses := carried.consecutiveLosses
    openPositions := if quantity ≈ 0 then 0 else 1
    grossExposureQuote := _canonical (Decimal.mul precision quantity mark)
    previousStateSha256 := carried.previousSha
    observationSha256 := observation.observationSha256 }

def _nextState (previous : Option ManagedPortfolioState) (observation : PortfolioObservation) :
    Except RiskStateError ManagedPortfolioState := do
  let carried ← match previous with
    | none => _initial observation
    | some previous => _carried previous observation
  construct (nextFields observation carried).postInit fun h => ⟨_, h⟩

theorem _nextState_none {o : PortfolioObservation} {s : ManagedPortfolioState}
    (h : _nextState none o = .ok s) :
    o.startNewSession = true ∧ o.closeOutcome = .noClose ∧
      s.toFields = nextFields o ⟨o.decisionTimeMs, ofText o.equityQuote, 0, ofText o.equityQuote, 0,
        none⟩ := by
  unfold _nextState _initial at h
  obtain ⟨c, hc, hs⟩ := bind_eq_ok.mp h
  simp only [raiseIf_bind_eq_ok, not_or, not_not] at hc
  obtain ⟨⟨-, hsession⟩, ⟨hclose, -⟩, hc⟩ := hc
  cases hc
  obtain ⟨_, rfl⟩ := construct_eq_ok.mp hs
  exact ⟨hsession, hclose, rfl⟩

theorem _nextState_some {p s : ManagedPortfolioState} {o : PortfolioObservation}
    (h : _nextState (some p) o = .ok s) :
    ∃ time equity pnl, _session p o = .ok (time, equity, pnl) ∧
      o.symbol = p.symbol ∧ o.sequence = p.sequence + 1 ∧ p.decisionTimeMs < o.decisionTimeMs ∧
      s.toFields = nextFields o ⟨time, equity, pnl,
        (ofText p.peakEquityQuote).larger (ofText o.equityQuote),
        _losses p.consecutiveLosses o.closeOutcome, some p.stateSha256⟩ := by
  unfold _nextState at h
  obtain ⟨c, hc, hs⟩ := bind_eq_ok.mp h
  unfold _carried at hc
  simp only [unit_bind_eq_ok, raiseIf_eq_ok, not_not, not_le] at hc
  obtain ⟨hsymbol, hsequence, htime, -, hc⟩ := hc
  obtain ⟨⟨time, equity, pnl⟩, hsession, hc⟩ := bind_eq_ok.mp hc
  cases hc
  obtain ⟨_, rfl⟩ := construct_eq_ok.mp hs
  exact ⟨time, equity, pnl, hsession, hsymbol, hsequence, htime, rfl⟩

end RiskState

namespace PortfolioStateTransition

structure Fields where
  previous : Option ManagedPortfolioState
  observation : PortfolioObservation
  current : ManagedPortfolioState
deriving DecidableEq

def Fields.postInit (t : Fields) : Except RiskStateError Unit := do
  let expected ← RiskState._nextState t.previous t.observation
  raiseIf (t.current ≠ expected) ⟨"Current managed state does not match its transition"⟩

end PortfolioStateTransition

structure PortfolioStateTransition extends PortfolioStateTransition.Fields where
  valid : toFields.postInit = .ok ()
deriving DecidableEq

def PortfolioStateTransition.build (f : PortfolioStateTransition.Fields) :
    Except RiskStateError PortfolioStateTransition :=
  construct f.postInit fun h => ⟨f, h⟩

def applyPortfolioObservation (previous : Option ManagedPortfolioState)
    (observation : PortfolioObservation) : Except RiskStateError PortfolioStateTransition := do
  let current ← RiskState._nextState previous observation
  PortfolioStateTransition.build ⟨previous, observation, current⟩

/-- The transition accepts an observation exactly when there is a next state. -/
theorem applyPortfolioObservation_eq_ok {p : Option ManagedPortfolioState}
    {o : PortfolioObservation} {t : PortfolioStateTransition} :
    applyPortfolioObservation p o = .ok t ↔
      RiskState._nextState p o = .ok t.current ∧ t.toFields = ⟨p, o, t.current⟩ := by
  unfold applyPortfolioObservation PortfolioStateTransition.build
  rw [bind_eq_ok]
  constructor
  · rintro ⟨s, hs, ht⟩
    obtain ⟨_, rfl⟩ := construct_eq_ok.mp ht
    exact ⟨hs, rfl⟩
  · rintro ⟨hs, ht⟩
    obtain ⟨f, hv⟩ := t
    refine ⟨f.current, hs, ?_⟩
    change f = _ at ht
    rw [← ht]
    exact construct_of_ok hv

end TradingLab
