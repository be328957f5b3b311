import TradingLab.Risk.Contracts
import TradingLab.Decimal.Format

/-!
# Managed portfolio states

The state of the paper portfolio after an observation: hash-chained to its
predecessor, with the equity the session started from, the peak so far, and the
exposure that follows from quantity and mark. The projection to the facts of a
risk request never fails.
-/

namespace TradingLab

structure RiskStateError where
  message : String
deriving Repr, DecidableEq

namespace RiskState

def _number (value name : String) (positive signed : Bool) : Except RiskStateError Decimal := do
  raiseIf (¬ (if signed then signedDecimalPattern value else decimalPattern value))
    ⟨name ++ " must be a plain decimal string"⟩
  let number := Decimal.ofText value
  raiseIf (positive ∧ number ≤ 0) ⟨name ++ " is outside the allowed range"⟩
  return number

theorem _number_eq_ok {value name : String} {positive signed : Bool} {d : Decimal} :
    _number value name positive signed = .ok d ↔
      (if signed then signedDecimalPattern value else decimalPattern value) = true ∧
        (positive → 0 < Decimal.ofText value) ∧ Decimal.ofText value = d := by
  unfold _number
  simp only [raiseIf_bind_eq_ok, not_not, not_and, Decimal.le_def, Decimal.lt_def, not_le, pure,
    Except.pure, Except.ok.injEq]

def _canonical (number : Decimal) : String := number.fixed

def precision : ℕ := 256

end RiskState

open RiskState (_number _number_eq_ok precision)

namespace ManagedPortfolioState

structure Fields where
  symbol : Symbol
  sequence : ℤ
  decisionTimeMs : ℤ
  sessionStartTimeMs : ℤ
  sessionStartEquityQuote : String
  equityQuote : String
  cashQuote : String
  positionQuantity : String
  markPrice : String
  peakEquityQuote : String
  sessionRealizedPnlQuote : String
  consecutiveLosses : ℤ
  openPositions : ℤ
  grossExposureQuote : String
  previousStateSha256 : Option String
  observationSha256 : String
deriving Repr, DecidableEq

def _alignedTime (value : ℤ) (name : String) : Except RiskStateError Unit :=
  raiseIf (value < 0 ∨ value % Interval.milliseconds .h1 ≠ 0)
    ⟨name ++ " must be an aligned 1h boundary"⟩

/-- The first state has no predecessor, and every later one names it. -/
def Fields._predecessor (s : Fields) : Except RiskStateError Unit :=
  if s.sequence = 0 then
    raiseIf (s.previousStateSha256 ≠ none) ⟨"Initial state cannot have a predecessor"⟩
  else
    raiseIf (¬ s.previousStateSha256.any Sha256.isHexDigest)
      ⟨"Managed state is missing its predecessor digest"⟩

def Fields.postInit (s : Fields) : Except RiskStateError Unit := do
  raiseIf (¬ (0 ≤ s.sequence ∧ s.sequence ≤ 1000000000)) ⟨"Managed-state sequence is invalid"⟩
  _alignedTime s.decisionTimeMs "decision_time_ms"
  _alignedTime s.sessionStartTimeMs "session_start_time_ms"
  raiseIf (s.decisionTimeMs < s.sessionStartTimeMs)
    ⟨"Session cannot start after the managed state"⟩
  let sessionStart ← _number s.sessionStartEquityQuote "session_start_equity_quote" true false
  let equity ← _number s.equityQuote "equity_quote" true false
  let _ ← _number s.cashQuote "cash_quote" false false
  let quantity ← _number s.positionQuantity "position_quantity" false false
  let mark ← _number s.markPrice "mark_price" true false
  let peak ← _number s.peakEquityQuote "peak_equity_quote" true false
  let _ ← _number s.sessionRealizedPnlQuote "session_realized_pnl_quote" false true
  let exposure ← _number s.grossExposureQuote "gross_exposure_quote" false false
  raiseIf (sessionStart ≤ 0 ∨ peak < equity) ⟨"Managed-state equity values are inconsistent"⟩
  raiseIf (¬ (0 ≤ s.consecutiveLosses ∧ s.consecutiveLosses ≤ 1000000) ∨
      ¬ (s.openPositions = 0 ∨ s.openPositions = 1))
    ⟨"Managed-state counters are invalid"⟩
  raiseIf (¬ (quantity ≈ 0 ↔ s.openPositions = 0))
    ⟨"Position quantity and open-position count disagree"⟩
  let notional := Decimal.mul precision quantity mark
  raiseIf (s.grossExposureQuote ≠ RiskState._canonical notional ∨ ¬ exposure ≈ notional)
    ⟨"Gross exposure is noncanonical or inconsistent"⟩
  s._predecessor
  raiseIf (¬ Sha256.isHexDigest s.observationSha256)
    ⟨"Managed state observation digest is invalid"⟩

end ManagedPortfolioState

structure ManagedPortfolioState extends ManagedPortfolioState.Fields where
  valid : toFields.postInit = .ok ()
deriving DecidableEq

namespace ManagedPortfolioState

/-- The facts about the numbers that the constructor guarantees. -/
structure Facts (s : Fields) : Prop where
  time : 0 ≤ s.decisionTimeMs ∧ s.decisionTimeMs % 3600000 = 0
  sessionStart : decimalPattern s.sessionStartEquityQuote ∧
    0 < Decimal.ofText s.sessionStartEquityQuote
  equity : decimalPattern s.equityQuote ∧ 0 < Decimal.ofText s.equityQuote
  cash : decimalPattern s.cashQuote
  quantity : decimalPattern s.positionQuantity
  mark : decimalPattern s.markPrice ∧ 0 < Decimal.ofText s.markPrice
  peak : decimalPattern s.peakEquityQuote ∧ 0 < Decimal.ofText s.peakEquityQuote
  pnl : signedDecimalPattern s.sessionRealizedPnlQuote
  peak_ge : ¬ Decimal.ofText s.peakEquityQuote < Decimal.ofText s.equityQuote
  losses : 0 ≤ s.consecutiveLosses ∧ s.consecutiveLosses ≤ 1000000
  positions : s.openPositions = 0 ∨ s.openPositions = 1
  flat : Decimal.ofText s.positionQuantity ≈ 0 ↔ s.openPositions = 0

theorem facts (s : ManagedPortfolioState) : Facts s.toFields := by
  have h := s.valid
  have hour : Interval.milliseconds .h1 = 3600000 := rfl
  unfold Fields.postInit _alignedTime at h
  simp only [bind_eq_ok, raiseIf_eq_ok, exists_const, _number_eq_ok, if_true, if_false,
    Bool.false_eq_true, hour, false_implies, true_implies, not_or, not_not, not_lt] at h
  obtain ⟨-, ht, -, -, ss, ⟨pss, zss, rfl⟩, eq, ⟨peq, zeq, rfl⟩, ca, ⟨pca, -, rfl⟩,
    qu, ⟨pqu, -, rfl⟩, ma, ⟨pma, zma, rfl⟩, pe, ⟨ppe, zpe, rfl⟩, pn, ⟨ppn, -, rfl⟩,
    ex, ⟨-, -, rfl⟩, ⟨-, hpe⟩, ⟨hl, hp⟩, hf, -⟩ := h
  exact ⟨ht, ⟨pss, zss⟩, ⟨peq, zeq⟩, pca, pqu, ⟨pma, zma⟩, ⟨ppe, zpe⟩, ppn, hpe, hl,
    by omega, hf⟩

def payload (s : ManagedPortfolioState) : Json := .dict [
  ("schema_version", .int 1),
  ("symbol", .str s.symbol.value),
  ("sequence", .int s.sequence),
  ("decision_time_ms", .int s.decisionTimeMs),
  ("session_start_time_ms", .int s.sessionStartTimeMs),
  ("session_start_equity_quote", .str s.sessionStartEquityQuote),
  ("equity_quote", .str s.equityQuote),
  ("cash_quote", .str s.cashQuote),
  ("position_quantity", .str s.positionQuantity),
  ("mark_price", .str s.markPrice),
  ("peak_equity_quote", .str s.peakEquityQuote),
  ("session_realized_pnl_quote", .str s.sessionRealizedPnlQuote),
  ("consecutive_losses", .int s.consecutiveLosses),
  ("open_positions", .int s.openPositions),
  ("gross_exposure_quote", .str s.grossExposureQuote),
  ("previous_state_sha256", .optionStr s.previousStateSha256),
  ("observation_sha256", .str s.observationSha256)]

def stateSha256 (s : ManagedPortfolioState) : String := s.payload.sha256

def riskFields (s : ManagedPortfolioState) (killSwitchActive : Bool) : PortfolioRiskState.Fields where
  symbol := s.symbol
  decisionTimeMs := s.decisionTimeMs
  equityQuote := s.equityQuote
  cashQuote := s.cashQuote
  positionQuantity := s.positionQuantity
  markPrice := s.markPrice
  peakEquityQuote := s.peakEquityQuote
  sessionRealizedPnlQuote := s.sessionRealizedPnlQuote
  consecutiveLosses := s.consecutiveLosses
  openPositions := s.openPositions
  killSwitchActive := killSwitchActive

theorem postInit_riskFields (s : ManagedPortfolioState) (k : Bool) :
    (s.riskFields k).postInit = .ok () := by
  have f := s.facts
  have hour : Interval.milliseconds .h1 = 3600000 := rfl
  have hpos := f.positions
  unfold PortfolioRiskState.Fields.postInit
  simp only [bind_eq_ok, raiseIf_eq_ok, exists_const, RiskContracts._decimal_eq_ok,
    if_true, if_false, Bool.false_eq_true, hour, false_implies, true_implies, not_or, not_not,
    not_lt, true_and]
  refine ⟨f.time, _, ⟨f.equity.1, f.equity.2, rfl⟩, _, ⟨f.cash, rfl⟩, _, ⟨f.quantity, rfl⟩, _,
    ⟨f.mark.1, f.mark.2, rfl⟩, _, ⟨f.peak.1, f.peak.2, rfl⟩, _, ⟨f.pnl, rfl⟩, f.peak_ge,
    ⟨f.losses, ?_⟩, f.flat⟩
  change 0 ≤ s.openPositions ∧ s.openPositions ≤ 1000000
  omega

/-- The managed facts as a risk request sees them. -/
def toRiskState (s : ManagedPortfolioState) (killSwitchActive : Bool) : PortfolioRiskState :=
  ⟨s.riskFields killSwitchActive, s.postInit_riskFields killSwitchActive⟩

end ManagedPortfolioState

end TradingLab
