import TradingLab.Risk.Adapter

/-!
# Local paper contracts

An execution decision routes a risk authorization. Only an approval met by a
ready recovery is accepted, and acceptance is local: the policy has one accepted
value, in which everything external is switched off.
-/

namespace TradingLab

def executionPolicyId : String := "P5_LOCAL_PAPER_V1"

structure ExecutionContractError where
  message : String
deriving Repr, DecidableEq

inductive RecoveryStatus where
  | recoveryRequired
  | ready
deriving Repr, DecidableEq

def RecoveryStatus.value : RecoveryStatus → String
  | recoveryRequired => "RECOVERY_REQUIRED"
  | ready => "READY"

inductive RecoveryReason where
  | failClosedStartup
  | reconciliationFailed
  | reconciliationPassed
deriving Repr, DecidableEq

def RecoveryReason.value : RecoveryReason → String
  | failClosedStartup => "FAIL_CLOSED_STARTUP"
  | reconciliationFailed => "RECONCILIATION_FAILED"
  | reconciliationPassed => "RECONCILIATION_PASSED"

namespace LocalPaperExecutionPolicy

structure Fields where
  policyId : String := executionPolicyId
  executionMode : String := "LOCAL_PAPER"
  paperOnly : Bool := true
  liveMasterLock : String := "OFF"
  spotOnly : Bool := true
  longOnly : Bool := true
  allowExternalTransport : Bool := false
  allowCredentials : Bool := false
  allowOrderEndpoint : Bool := false
  allowLeverage : Bool := false
  allowWithdrawal : Bool := false
  allowAiDirectExecution : Bool := false
deriving Repr, DecidableEq

/-- Every field has one accepted value, its default. -/
def Fields.postInit (p : Fields) : Except ExecutionContractError Unit :=
  raiseIf (p ≠ {}) ⟨"Execution policy differs from the frozen local Paper policy"⟩

end LocalPaperExecutionPolicy

structure LocalPaperExecutionPolicy extends LocalPaperExecutionPolicy.Fields where
  valid : toFields.postInit = .ok ()
deriving DecidableEq

namespace LocalPaperExecutionPolicy

def frozen : LocalPaperExecutionPolicy := ⟨{}, by simp [Fields.postInit]⟩

theorem eq_frozen (p : LocalPaperExecutionPolicy) : p = frozen := by
  obtain ⟨f, h⟩ := p
  unfold Fields.postInit at h
  rw [raiseIf_eq_ok, not_not] at h
  subst h
  rfl

def payload (p : LocalPaperExecutionPolicy) : Json := .dict [
  ("policy_id", .str p.policyId),
  ("execution_mode", .str p.executionMode),
  ("paper_only", .bool p.paperOnly),
  ("live_master_lock", .str p.liveMasterLock),
  ("spot_only", .bool p.spotOnly),
  ("long_only", .bool p.longOnly),
  ("allow_external_transport", .bool p.allowExternalTransport),
  ("allow_credentials", .bool p.allowCredentials),
  ("allow_order_endpoint", .bool p.allowOrderEndpoint),
  ("allow_leverage", .bool p.allowLeverage),
  ("allow_withdrawal", .bool p.allowWithdrawal),
  ("allow_ai_direct_execution", .bool p.allowAiDirectExecution)]

end LocalPaperExecutionPolicy

namespace RecoveryReadiness

structure Fields where
  status : RecoveryStatus := .recoveryRequired
  reason : RecoveryReason := .failClosedStartup
  reconciliationSha256 : Option String := none
deriving Repr, DecidableEq

/-- Which reason and which evidence go with a status. -/
def Fields.consistent (r : Fields) : Prop :=
  (r.status = .recoveryRequired ∧ r.reason = .failClosedStartup ∧ r.reconciliationSha256 = none) ∨
  (r.status = .recoveryRequired ∧ r.reason = .reconciliationFailed ∧
    r.reconciliationSha256.any Sha256.isHexDigest) ∨
  (r.status = .ready ∧ r.reason = .reconciliationPassed ∧
    r.reconciliationSha256.any Sha256.isHexDigest)

instance (r : Fields) : Decidable r.consistent := by
  unfold Fields.consistent
  infer_instance

def Fields.postInit (r : Fields) : Except ExecutionContractError Unit :=
  raiseIf (¬ r.consistent) ⟨"Recovery status, reason and reconciliation evidence disagree"⟩

end RecoveryReadiness

structure RecoveryReadiness extends RecoveryReadiness.Fields where
  valid : toFields.postInit = .ok ()
deriving DecidableEq

namespace RecoveryReadiness

def payload (r : RecoveryReadiness) : Json := .dict [
  ("schema_version", .int 1),
  ("status", .str r.status.value),
  ("reason", .str r.reason.value),
  ("reconciliation_sha256", .optionStr r.reconciliationSha256)]

def readinessSha256 (r : RecoveryReadiness) : String := r.payload.sha256

end RecoveryReadiness

inductive ExecutionDisposition where
  | noAction
  | blocked
  | acceptLocalPaper
deriving Repr, DecidableEq

def ExecutionDisposition.value : ExecutionDisposition → String
  | noAction => "NO_ACTION"
  | blocked => "BLOCKED"
  | acceptLocalPaper => "ACCEPT_LOCAL_PAPER"

inductive ExecutionReason where
  | noStrategyAction
  | riskNotApproved
  | recoveryNotReady
  | localPaperAuthorized
deriving Repr, DecidableEq

def ExecutionReason.value : ExecutionReason → String
  | noStrategyAction => "NO_STRATEGY_ACTION"
  | riskNotApproved => "RISK_NOT_APPROVED"
  | recoveryNotReady => "RECOVERY_NOT_READY"
  | localPaperAuthorized => "LOCAL_PAPER_AUTHORIZED"

structure Routing where
  disposition : ExecutionDisposition
  reason : ExecutionReason
  action : IntentAction
  approvedQuantity : Option String
deriving Repr, DecidableEq

def _expectedExecution (authorization : RiskAuthorization) (readiness : RecoveryReadiness) :
    Except ExecutionContractError Routing :=
  let decision := authorization.decision
  match decision.disposition with
  | .noAction => .ok ⟨.noAction, .noStrategyAction, .hold, none⟩
  | .reject => .ok ⟨.blocked, .riskNotApproved, .hold, none⟩
  | .approvePaper =>
      if readiness.status ≠ .ready then .ok ⟨.blocked, .recoveryNotReady, .hold, none⟩
      else
        let action := match decision.request.strategyDecision.action with
          | .enterLong => some IntentAction.enterLong
          | .exitLong => some IntentAction.exitLong
          | .noTrade => none
        match action, decision.approvedQuantity with
        | some action, some quantity =>
            .ok ⟨.acceptLocalPaper, .localPaperAuthorized, action, some quantity⟩
        | _, _ => .error ⟨"P4 approval has no valid local Paper action"⟩

namespace LocalPaperExecutionDecision

structure Fields extends Routing where
  authorization : RiskAuthorization
  readiness : RecoveryReadiness
  policy : LocalPaperExecutionPolicy := LocalPaperExecutionPolicy.frozen
deriving DecidableEq

def Fields.postInit (d : Fields) : Except ExecutionContractError Unit := do
  let expected ← _expectedExecution d.authorization d.readiness
  raiseIf (d.toRouting ≠ expected)
    ⟨"Execution disposition, reason, action and quantity disagree"⟩

end LocalPaperExecutionDecision

structure LocalPaperExecutionDecision extends LocalPaperExecutionDecision.Fields where
  valid : toFields.postInit = .ok ()
deriving DecidableEq

namespace LocalPaperExecutionDecision

def authorizationSha256 (d : LocalPaperExecutionDecision) : String :=
  d.authorization.authorizationSha256

def payload (d : LocalPaperExecutionDecision) : Json := .dict [
  ("schema_version", .int 1),
  ("authorization_sha256", .str d.authorizationSha256),
  ("readiness_sha256", .str d.readiness.readinessSha256),
  ("policy", d.policy.payload),
  ("disposition", .str d.disposition.value),
  ("reason", .str d.reason.value),
  ("action", .str d.action.value),
  ("approved_quantity", .optionStr d.approvedQuantity)]

def decisionSha256 (d : LocalPaperExecutionDecision) : String := d.payload.sha256

end LocalPaperExecutionDecision

end TradingLab
