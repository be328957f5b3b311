import TradingLab.Strategy.Contracts

/-!
# Risk contracts

A request binds a strategy decision to the evidence behind it, to the facts of
the paper portfolio at the same time and to the frozen policy. A decision answers
a request; its disposition fixes the reasons and the quantity it may carry.
-/

namespace TradingLab

def riskPolicyId : String := "P4_RISK_V1"

structure RiskContractError where
  message : String
deriving Repr, DecidableEq

def signedDecimalPattern (s : String) : Bool := Decimal.signedText 40 40 s

inductive EvidenceLabel where
  | insufficientEvidence
  | rejected
  | qualifiedForP4Research
deriving Repr, DecidableEq

def EvidenceLabel.value : EvidenceLabel → String
  | insufficientEvidence => "INSUFFICIENT_EVIDENCE"
  | rejected => "REJECTED"
  | qualifiedForP4Research => "QUALIFIED_FOR_P4_RESEARCH"

namespace RiskContracts

def _decimal (value field : String) (positive signed : Bool) : Except RiskContractError Decimal := do
  raiseIf (¬ (if signed then signedDecimalPattern value else decimalPattern value))
    ⟨field ++ " must be a plain decimal string"⟩
  let number := Decimal.ofText value
  raiseIf (positive ∧ number ≤ 0) ⟨field ++ " is outside the allowed range"⟩
  return number

theorem _decimal_eq_ok {value field : String} {positive signed : Bool} {d : Decimal} :
    _decimal value field positive signed = .ok d ↔
      (if signed then signedDecimalPattern value else decimalPattern value) = true ∧
        (positive → 0 < Decimal.ofText value) ∧ Decimal.ofText value = d := by
  unfold _decimal
  simp only [raiseIf_bind_eq_ok, not_not, not_and, Decimal.le_def, Decimal.lt_def, not_le, pure,
    Except.pure, Except.ok.injEq]

end RiskContracts

open RiskContracts (_decimal _decimal_eq_ok)

namespace RiskPolicy

structure Fields where
  policyId : String := riskPolicyId
  riskPerTradeFraction : String := "0.01"
  maxPositionFraction : String := "0.25"
  maxGrossExposureFraction : String := "0.25"
  maxSessionLossFraction : String := "0.02"
  maxDrawdownFraction : String := "0.10"
  maxConsecutiveLosses : ℤ := 3
  maxOpenPositions : ℤ := 1
  paperOnly : Bool := true
  liveMasterLock : String := "OFF"
  spotOnly : Bool := true
  longOnly : Bool := true
  allowLeverage : Bool := false
  allowWithdrawal : Bool := false
  allowOrderEndpoint : Bool := false
  allowAiDirectExecution : Bool := false
deriving Repr, DecidableEq

/-- Every field has one accepted value, its default. -/
def Fields.postInit (p : Fields) : Except RiskContractError Unit :=
  raiseIf (p ≠ {}) ⟨"Risk policy differs from the frozen P4 policy"⟩

end RiskPolicy

structure RiskPolicy extends RiskPolicy.Fields where
  valid : toFields.postInit = .ok ()
deriving DecidableEq

namespace RiskPolicy

def frozen : RiskPolicy := ⟨{}, by simp [Fields.postInit]⟩

theorem eq_frozen (p : RiskPolicy) : p = frozen := by
  obtain ⟨f, h⟩ := p
  unfold Fields.postInit at h
  rw [raiseIf_eq_ok, not_not] at h
  subst h
  rfl

def payload (p : RiskPolicy) : Json := .dict [
  ("policy_id", .str p.policyId),
  ("risk_per_trade_fraction", .str p.riskPerTradeFraction),
  ("max_position_fraction", .str p.maxPositionFraction),
  ("max_gross_exposure_fraction", .str p.maxGrossExposureFraction),
  ("max_session_loss_fraction", .str p.maxSessionLossFraction),
  ("max_drawdown_fraction", .str p.maxDrawdownFraction),
  ("max_consecutive_losses", .int p.maxConsecutiveLosses),
  ("max_open_positions", .int p.maxOpenPositions),
  ("paper_only", .bool p.paperOnly),
  ("live_master_lock", .str p.liveMasterLock),
  ("spot_only", .bool p.spotOnly),
  ("long_only", .bool p.longOnly),
  ("allow_leverage", .bool p.allowLeverage),
  ("allow_withdrawal", .bool p.allowWithdrawal),
  ("allow_order_endpoint", .bool p.allowOrderEndpoint),
  ("allow_ai_direct_execution", .bool p.allowAiDirectExecution)]

end RiskPolicy

namespace PortfolioRiskState

structure Fields where
  symbol : Symbol
  decisionTimeMs : ℤ
  equityQuote : String
  cashQuote : String
  positionQuantity : String
  markPrice : String
  peakEquityQuote : String
  sessionRealizedPnlQuote : String := "0"
  consecutiveLosses : ℤ := 0
  openPositions : ℤ := 0
  killSwitchActive : Bool := false
deriving Repr, DecidableEq

def Fields.postInit (s : Fields) : Except RiskContractError Unit := do
  raiseIf (s.decisionTimeMs < 0 ∨ s.decisionTimeMs % Interval.milliseconds .h1 ≠ 0)
    ⟨"Risk state time must be an aligned 1h boundary"⟩
  let equity ← _decimal s.equityQuote "equity_quote" true false
  let _ ← _decimal s.cashQuote "cash_quote" false false
  let quantity ← _decimal s.positionQuantity "position_quantity" false false
  let _ ← _decimal s.markPrice "mark_price" true false
  let peak ← _decimal s.peakEquityQuote "peak_equity_quote" true false
  let _ ← _decimal s.sessionRealizedPnlQuote "session_realized_pnl_quote" false true
  raiseIf (peak < equity) ⟨"peak_equity_quote cannot be below current equity"⟩
  raiseIf (¬ (0 ≤ s.consecutiveLosses ∧ s.consecutiveLosses ≤ 1000000) ∨
      ¬ (0 ≤ s.openPositions ∧ s.openPositions ≤ 1000000))
    ⟨"Risk state counters are invalid"⟩
  raiseIf (¬ (quantity ≈ 0 ↔ s.openPositions = 0))
    ⟨"Position quantity and open-position count disagree"⟩

end PortfolioRiskState

structure PortfolioRiskState extends PortfolioRiskState.Fields where
  valid : toFields.postInit = .ok ()
deriving DecidableEq

namespace PortfolioRiskState

def build (f : Fields) : Except RiskContractError PortfolioRiskState :=
  construct f.postInit fun h => ⟨f, h⟩

def payload (s : PortfolioRiskState) : Json := .dict [
  ("symbol", .str s.symbol.value),
  ("decision_time_ms", .int s.decisionTimeMs),
  ("equity_quote", .str s.equityQuote),
  ("cash_quote", .str s.cashQuote),
  ("position_quantity", .str s.positionQuantity),
  ("mark_price", .str s.markPrice),
  ("peak_equity_quote", .str s.peakEquityQuote),
  ("session_realized_pnl_quote", .str s.sessionRealizedPnlQuote),
  ("consecutive_losses", .int s.consecutiveLosses),
  ("open_positions", .int s.openPositions),
  ("kill_switch_active", .bool s.killSwitchActive)]

end PortfolioRiskState

namespace RiskRequest

structure Fields where
  strategyDecision : StrategyDecision
  evidenceLabel : EvidenceLabel
  portfolio : PortfolioRiskState
  policy : RiskPolicy := RiskPolicy.frozen
deriving DecidableEq

def Fields.postInit (r : Fields) : Except RiskContractError Unit := do
  raiseIf (r.strategyDecision.symbol ≠ r.portfolio.symbol ∨
      r.strategyDecision.decisionTimeMs ≠ r.portfolio.decisionTimeMs)
    ⟨"Strategy decision and portfolio state do not match"⟩
  raiseIf (r.strategyDecision.action = .enterLong ∧ r.portfolio.openPositions ≠ 0)
    ⟨"Entry request cannot overlap an open position"⟩
  raiseIf (r.strategyDecision.action = .exitLong ∧ r.portfolio.openPositions = 0)
    ⟨"Exit request requires an open position"⟩

end RiskRequest

structure RiskRequest extends RiskRequest.Fields where
  valid : toFields.postInit = .ok ()
deriving DecidableEq

namespace RiskRequest

def setupPayload (s : LongSetup) : Json := .dict [
  ("reference_price", .str s.referencePrice),
  ("invalidation_price", .str s.invalidationPrice),
  ("target_price", .str s.targetPrice)]

def payload (r : RiskRequest) : Json := .dict [
  ("schema_version", .int 1),
  ("strategy", .dict [
    ("id", .str r.strategyDecision.strategyId),
    ("version", .str r.strategyDecision.strategyVersion),
    ("action", .str r.strategyDecision.action.value),
    ("reason", .str r.strategyDecision.reason.value),
    ("context_sha256", .str r.strategyDecision.contextSha256),
    ("setup", .ofOption setupPayload r.strategyDecision.setup)]),
  ("evidence_label", .str r.evidenceLabel.value),
  ("portfolio", r.portfolio.payload),
  ("policy", r.policy.payload)]

def requestSha256 (r : RiskRequest) : String := r.payload.sha256

theorem openPositions_ne_zero (r : RiskRequest) (h : r.strategyDecision.action = .exitLong) :
    r.portfolio.openPositions ≠ 0 := by
  have hv := r.valid
  unfold Fields.postInit at hv
  simp only [unit_bind_eq_ok, raiseIf_eq_ok, not_and] at hv
  exact hv.2.2 h

end RiskRequest

inductive RiskDisposition where
  | noAction
  | reject
  | approvePaper
deriving Repr, DecidableEq

def RiskDisposition.value : RiskDisposition → String
  | noAction => "NO_ACTION"
  | reject => "REJECT"
  | approvePaper => "APPROVE_PAPER"

inductive RiskReason where
  | noStrategyAction
  | pendingRiskEvaluation
  | evidenceNotQualified
  | riskChecksPassed
  | exitReducesRisk
  | killSwitchActive
deriving Repr, DecidableEq

def RiskReason.value : RiskReason → String
  | noStrategyAction => "NO_STRATEGY_ACTION"
  | pendingRiskEvaluation => "PENDING_RISK_EVALUATION"
  | evidenceNotQualified => "EVIDENCE_NOT_QUALIFIED"
  | riskChecksPassed => "RISK_CHECKS_PASSED"
  | exitReducesRisk => "EXIT_REDUCES_RISK"
  | killSwitchActive => "KILL_SWITCH_ACTIVE"

namespace RiskDecision

structure Fields where
  request : RiskRequest
  disposition : RiskDisposition
  reason : RiskReason
  approvedQuantity : Option String := none
deriving DecidableEq

def Fields.action (d : Fields) : StrategyAction := d.request.strategyDecision.action

def Fields.consistent (d : Fields) (quantity : Option Decimal) : Prop :=
  match d.disposition with
  | .noAction => d.action = .noTrade ∧ d.reason = .noStrategyAction ∧ quantity = none
  | .reject => d.action = .enterLong ∧
      d.reason ∈ [.pendingRiskEvaluation, .evidenceNotQualified, .killSwitchActive] ∧
      quantity = none
  | .approvePaper =>
      if d.action = .enterLong then
        d.reason = .riskChecksPassed ∧ quantity ≠ none ∧
          d.request.evidenceLabel = .qualifiedForP4Research ∧
          d.request.portfolio.killSwitchActive = false
      else d.action = .exitLong ∧ d.reason = .exitReducesRisk ∧
        quantity.any (· ≈ Decimal.ofText d.request.portfolio.positionQuantity)

instance (d : Fields) (q : Option Decimal) : Decidable (d.consistent q) := by
  unfold Fields.consistent
  split <;> infer_instance

def Fields.postInit (d : Fields) : Except RiskContractError Unit := do
  let quantity ← match d.approvedQuantity with
    | none => pure none
    | some text => some <$> _decimal text "approved_quantity" true false
  raiseIf (¬ d.consistent quantity)
    ⟨"Risk disposition, reason and quantity are inconsistent"⟩

end RiskDecision

structure RiskDecision extends RiskDecision.Fields where
  valid : toFields.postInit = .ok ()
deriving DecidableEq

namespace RiskDecision

def build (f : Fields) : Except RiskContractError RiskDecision :=
  construct f.postInit fun h => ⟨f, h⟩

theorem postInit_exit {r : RiskRequest} (h : r.strategyDecision.action = .exitLong)
    (hp : decimalPattern r.portfolio.positionQuantity)
    (hq : 0 < Decimal.ofText r.portfolio.positionQuantity) :
    Fields.postInit ⟨r, .approvePaper, .exitReducesRisk, some r.portfolio.positionQuantity⟩ =
      .ok () := by
  have hd : _decimal r.portfolio.positionQuantity "approved_quantity" true false =
      .ok (Decimal.ofText r.portfolio.positionQuantity) := _decimal_eq_ok.mpr ⟨hp, fun _ => hq, rfl⟩
  unfold Fields.postInit
  simp only [hd, Except.map_ok, bind, Except.bind, raiseIf_eq_ok, not_not]
  simp [Fields.consistent, Fields.action, h, Decimal.equiv_def]

end RiskDecision

end TradingLab
