import TradingLab.Risk.Entry
import TradingLab.Risk.KillSwitch

/-!
# Authorization of paper requests

The authorization binds a request to the managed state, the kill switch, the
circuit evidence and, for an entry, the protective evidence. Its decision follows
from these alone, and the constructor takes the decision again.
-/

namespace TradingLab

structure RiskAdapterError where
  message : String
deriving Repr, DecidableEq

namespace RiskAdapter

/-- The contract errors of a decision pass through unchanged. -/
inductive Error where
  | adapter (e : RiskAdapterError)
  | contract (e : RiskContractError)
deriving Repr, DecidableEq

def _decide (d : RiskDecision.Fields) : Except Error RiskDecision :=
  (RiskDecision.build d).mapError .contract

def _reject (request : RiskRequest) (reason : RiskReason) : Except Error RiskDecision :=
  _decide ⟨request, .reject, reason, none⟩

def _decisionFor (request : RiskRequest) (managedState : ManagedPortfolioState)
    (killSwitchState : KillSwitchState) (circuit : CircuitAssessment)
    (protective : Option ProtectiveAssessment) : Except Error RiskDecision := do
  raiseIf (circuit.request ≠ request ∨ circuit.managedState ≠ managedState)
    (.adapter ⟨"Circuit evidence does not match the risk request"⟩)
  raiseIf (request.portfolio.killSwitchActive ≠ killSwitchState.active)
    (.adapter ⟨"Risk request and Kill Switch state disagree"⟩)
  raiseIf (protective.any fun p => p.limitAssessment.positionSize.request ≠ request)
    (.adapter ⟨"Protective evidence does not match the request"⟩)
  match request.strategyDecision.action with
  | .enterLong =>
      raiseIf (killSwitchState.lastCircuitSha256 ≠ some circuit.circuitSha256 ∨
          killSwitchState.lastCircuitTimeMs ≠ some managedState.decisionTimeMs)
        (.adapter ⟨"Entry requires the latest consumed circuit evidence"⟩)
      raiseIf (circuit.triggeredBreakers ≠ [] ∧ killSwitchState.active = false)
        (.adapter ⟨"Active circuit breakers are not latched"⟩)
      if killSwitchState.active then _reject request .killSwitchActive
      else if request.evidenceLabel ≠ .qualifiedForP4Research then
        _reject request .evidenceNotQualified
      else if circuit.triggeredBreakers ≠ [] then _reject request .pendingRiskEvaluation
      else match protective with
        | none => _reject request .pendingRiskEvaluation
        | some p =>
            if p.status ≠ .pass then _reject request .pendingRiskEvaluation
            else _decide ⟨request, .approvePaper, .riskChecksPassed, some p.quantity⟩
  | .exitLong =>
      raiseIf (protective ≠ none)
        (.adapter ⟨"Non-entry authorization cannot carry protective evidence"⟩)
      _decide ⟨request, .approvePaper, .exitReducesRisk, some request.portfolio.positionQuantity⟩
  | .noTrade =>
      raiseIf (protective ≠ none)
        (.adapter ⟨"Non-entry authorization cannot carry protective evidence"⟩)
      _decide ⟨request, .noAction, .noStrategyAction, none⟩

end RiskAdapter

namespace RiskAuthorization

structure Fields where
  request : RiskRequest
  managedState : ManagedPortfolioState
  killSwitchState : KillSwitchState
  circuitAssessment : CircuitAssessment
  protectiveAssessment : Option ProtectiveAssessment
  decision : RiskDecision
deriving DecidableEq

def Fields.postInit (a : Fields) : Except RiskAdapter.Error Unit := do
  let expected ← RiskAdapter._decisionFor a.request a.managedState a.killSwitchState
    a.circuitAssessment a.protectiveAssessment
  raiseIf (a.decision ≠ expected ∨ a.decision.request ≠ a.request)
    (.adapter ⟨"Risk authorization decision is inconsistent"⟩)

end RiskAuthorization

structure RiskAuthorization extends RiskAuthorization.Fields where
  valid : toFields.postInit = .ok ()
deriving DecidableEq

namespace RiskAuthorization

def payload (a : RiskAuthorization) : Json := .dict [
  ("schema_version", .int 1),
  ("request_sha256", .str a.request.requestSha256),
  ("managed_state_sha256", .str a.managedState.stateSha256),
  ("kill_switch_state_sha256", .str a.killSwitchState.stateSha256),
  ("circuit_sha256", .str a.circuitAssessment.circuitSha256),
  ("protective_sha256", .optionStr (a.protectiveAssessment.map ProtectiveAssessment.gateSha256)),
  ("disposition", .str a.decision.disposition.value),
  ("reason", .str a.decision.reason.value),
  ("approved_quantity", .optionStr a.decision.approvedQuantity)]

def authorizationSha256 (a : RiskAuthorization) : String := a.payload.sha256

end RiskAuthorization

def authorizePaperRequest (request : RiskRequest) (managedState : ManagedPortfolioState)
    (killSwitchState : KillSwitchState) (circuit : CircuitAssessment)
    (protective : Option ProtectiveAssessment) : Except RiskAdapter.Error RiskAuthorization := do
  let decision ← RiskAdapter._decisionFor request managedState killSwitchState circuit protective
  let fields : RiskAuthorization.Fields :=
    ⟨request, managedState, killSwitchState, circuit, protective, decision⟩
  construct fields.postInit fun h => ⟨fields, h⟩

namespace RiskAdapter

variable {r : RiskRequest} {s : ManagedPortfolioState} {k : KillSwitchState}
  {c : CircuitAssessment} {p : Option ProtectiveAssessment}

/-- The decision taken answers the request it was taken for. -/
theorem request_decisionFor {d : RiskDecision}
    (h : _decisionFor r s k c p = .ok d) : d.request = r := by
  have hdecide : ∀ {f : RiskDecision.Fields} {d : RiskDecision},
      _decide f = .ok d → d.request = f.request := by
    intro f d hd
    unfold _decide RiskDecision.build at hd
    cases hc : construct f.postInit (fun h => (⟨f, h⟩ : RiskDecision)) with
    | error e =>
      rw [hc] at hd
      cases hd
    | ok d' =>
      rw [hc] at hd
      obtain ⟨_, rfl⟩ := construct_eq_ok.mp hc
      cases hd
      rfl
  unfold _decisionFor at h
  simp only [raiseIf_bind_eq_ok] at h
  obtain ⟨-, -, -, h⟩ := h
  cases ha : r.strategyDecision.action with
  | noTrade =>
    rw [ha] at h
    exact hdecide (raiseIf_bind_eq_ok.mp h).2
  | exitLong =>
    rw [ha] at h
    exact hdecide (raiseIf_bind_eq_ok.mp h).2
  | enterLong =>
    rw [ha] at h
    simp only [raiseIf_bind_eq_ok] at h
    obtain ⟨-, -, h⟩ := h
    split at h
    · exact hdecide h
    split at h
    · exact hdecide h
    split at h
    · exact hdecide h
    cases p with
    | none => exact hdecide h
    | some p =>
      simp only at h
      split at h
      · exact hdecide h
      · exact hdecide h

theorem authorize_of_decision {d : RiskDecision} (h : _decisionFor r s k c p = .ok d) :
    ∃ a, authorizePaperRequest r s k c p = .ok a ∧ a.decision = d := by
  have hv : (⟨r, s, k, c, p, d⟩ : RiskAuthorization.Fields).postInit = .ok () := by
    unfold RiskAuthorization.Fields.postInit
    rw [h, ok_bind, raiseIf_eq_ok, request_decisionFor h]
    simp
  refine ⟨⟨_, hv⟩, ?_, rfl⟩
  unfold authorizePaperRequest
  rw [h, ok_bind]
  exact construct_of_ok hv

theorem authorize_eq_ok {a : RiskAuthorization}
    (h : authorizePaperRequest r s k c p = .ok a) : _decisionFor r s k c p = .ok a.decision := by
  unfold authorizePaperRequest at h
  rw [bind_eq_ok] at h
  obtain ⟨d, hd, hc⟩ := h
  obtain ⟨_, rfl⟩ := construct_eq_ok.mp hc
  exact hd

end RiskAdapter

end TradingLab
