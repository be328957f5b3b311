import TradingLab.Risk.State

/-!
# Circuit breakers

Three frozen limits are assessed against the managed state: the loss of the
session, the drawdown from the peak and the run of losses. The evidence repeats
every number as its fixed-point text, and the constructor recomputes all of it.
-/

namespace TradingLab

open RiskState (_canonical precision)

structure CircuitBreakerError where
  message : String
deriving Repr, DecidableEq

inductive CircuitBreaker where
  | sessionLossLimit
  | drawdownLimit
  | consecutiveLossLimit
deriving Repr, DecidableEq

def CircuitBreaker.value : CircuitBreaker → String
  | sessionLossLimit => "SESSION_LOSS_LIMIT"
  | drawdownLimit => "DRAWDOWN_LIMIT"
  | consecutiveLossLimit => "CONSECUTIVE_LOSS_LIMIT"

inductive CircuitDisposition where
  | clear
  | blockEntry
  | allowRiskReducingExit
  | noAction
deriving Repr, DecidableEq

def CircuitDisposition.value : CircuitDisposition → String
  | clear => "CLEAR"
  | blockEntry => "BLOCK_ENTRY"
  | allowRiskReducingExit => "ALLOW_RISK_REDUCING_EXIT"
  | noAction => "NO_ACTION"

inductive CircuitReason where
  | withinLimits
  | sessionLossLimit
  | drawdownLimit
  | consecutiveLossLimit
  | multipleLimits
  | exitReducesRisk
  | noStrategyAction
deriving Repr, DecidableEq

def CircuitReason.value : CircuitReason → String
  | withinLimits => "WITHIN_LIMITS"
  | sessionLossLimit => "SESSION_LOSS_LIMIT"
  | drawdownLimit => "DRAWDOWN_LIMIT"
  | consecutiveLossLimit => "CONSECUTIVE_LOSS_LIMIT"
  | multipleLimits => "MULTIPLE_LIMITS"
  | exitReducesRisk => "EXIT_REDUCES_RISK"
  | noStrategyAction => "NO_STRATEGY_ACTION"

def _singleReason : CircuitBreaker → CircuitReason
  | .sessionLossLimit => .sessionLossLimit
  | .drawdownLimit => .drawdownLimit
  | .consecutiveLossLimit => .consecutiveLossLimit

namespace Circuit

/-- What the assessment is expected to say. -/
structure Values where
  disposition : CircuitDisposition
  reason : CircuitReason
  triggeredBreakers : List CircuitBreaker
  sessionLossQuote : Decimal
  sessionLossLimitQuote : Decimal
  drawdownQuote : Decimal
  drawdownLimitQuote : Decimal
  consecutiveLosses : ℤ
  consecutiveLossLimit : ℤ

def sessionLoss (s : ManagedPortfolioState) : Decimal :=
  (Decimal.neg precision (Decimal.ofText s.sessionRealizedPnlQuote)).larger 0

def sessionLimit (s : ManagedPortfolioState) (p : RiskPolicy) : Decimal :=
  Decimal.mul precision (Decimal.ofText s.sessionStartEquityQuote)
    (Decimal.ofText p.maxSessionLossFraction)

def drawdown (s : ManagedPortfolioState) : Decimal :=
  Decimal.sub precision (Decimal.ofText s.peakEquityQuote) (Decimal.ofText s.equityQuote)

def drawdownLimit (s : ManagedPortfolioState) (p : RiskPolicy) : Decimal :=
  Decimal.mul precision (Decimal.ofText s.peakEquityQuote) (Decimal.ofText p.maxDrawdownFraction)

def triggered (s : ManagedPortfolioState) (p : RiskPolicy) : List CircuitBreaker :=
  ([(.sessionLossLimit, decide (sessionLimit s p ≤ sessionLoss s)),
    (.drawdownLimit, decide (drawdownLimit s p ≤ drawdown s)),
    (.consecutiveLossLimit, decide (p.maxConsecutiveLosses ≤ s.consecutiveLosses))].filter
      Prod.snd).map Prod.fst

def outcome (action : StrategyAction) (triggered : List CircuitBreaker) :
    CircuitDisposition × CircuitReason :=
  match action with
  | .noTrade => (.noAction, .noStrategyAction)
  | .exitLong => (.allowRiskReducingExit, .exitReducesRisk)
  | .enterLong =>
      match triggered with
      | [] => (.clear, .withinLimits)
      | [breaker] => (.blockEntry, _singleReason breaker)
      | _ => (.blockEntry, .multipleLimits)

def _values (request : RiskRequest) (managedState : ManagedPortfolioState) :
    Except CircuitBreakerError Values := do
  let projected := managedState.toRiskState request.portfolio.killSwitchActive
  raiseIf (request.portfolio ≠ projected)
    ⟨"Risk request does not match managed portfolio state"⟩
  let triggeredBreakers := triggered managedState request.policy
  let (disposition, reason) := outcome request.strategyDecision.action triggeredBreakers
  return {
    disposition, reason, triggeredBreakers
    sessionLossQuote := sessionLoss managedState
    sessionLossLimitQuote := sessionLimit managedState request.policy
    drawdownQuote := drawdown managedState
    drawdownLimitQuote := drawdownLimit managedState request.policy
    consecutiveLosses := managedState.consecutiveLosses
    consecutiveLossLimit := request.policy.maxConsecutiveLosses }

end Circuit

namespace CircuitAssessment

structure Fields where
  request : RiskRequest
  managedState : ManagedPortfolioState
  disposition : CircuitDisposition
  reason : CircuitReason
  triggeredBreakers : List CircuitBreaker
  sessionLossQuote : String
  sessionLossLimitQuote : String
  drawdownQuote : String
  drawdownLimitQuote : String
  consecutiveLosses : ℤ
  consecutiveLossLimit : ℤ
deriving DecidableEq

/-- A repeated number must be a plain text, and the text of what was recomputed. -/
def _quote (value : String) (expected : Decimal) : Except CircuitBreakerError Unit :=
  raiseIf (¬ decimalPattern value ∨ value ≠ _canonical expected)
    ⟨"Circuit assessment is noncanonical or inconsistent"⟩

def Fields.postInit (c : Fields) : Except CircuitBreakerError Unit := do
  let expected ← Circuit._values c.request c.managedState
  raiseIf (c.disposition ≠ expected.disposition ∨ c.reason ≠ expected.reason ∨
      c.triggeredBreakers ≠ expected.triggeredBreakers)
    ⟨"Circuit disposition or reason is inconsistent"⟩
  _quote c.sessionLossQuote expected.sessionLossQuote
  _quote c.sessionLossLimitQuote expected.sessionLossLimitQuote
  _quote c.drawdownQuote expected.drawdownQuote
  _quote c.drawdownLimitQuote expected.drawdownLimitQuote
  raiseIf (c.consecutiveLosses ≠ expected.consecutiveLosses)
    ⟨"Circuit counters are inconsistent"⟩
  raiseIf (c.consecutiveLossLimit ≠ expected.consecutiveLossLimit)
    ⟨"Circuit counters are inconsistent"⟩

end CircuitAssessment

structure CircuitAssessment extends CircuitAssessment.Fields where
  valid : toFields.postInit = .ok ()
deriving DecidableEq

namespace CircuitAssessment

def payload (c : CircuitAssessment) : Json := .dict [
  ("schema_version", .int 1),
  ("request_sha256", .str c.request.requestSha256),
  ("state_sha256", .str c.managedState.stateSha256),
  ("disposition", .str c.disposition.value),
  ("reason", .str c.reason.value),
  ("triggered_breakers", .list (c.triggeredBreakers.map fun b => .str b.value)),
  ("session_loss_quote", .str c.sessionLossQuote),
  ("session_loss_limit_quote", .str c.sessionLossLimitQuote),
  ("drawdown_quote", .str c.drawdownQuote),
  ("drawdown_limit_quote", .str c.drawdownLimitQuote),
  ("consecutive_losses", .int c.consecutiveLosses),
  ("consecutive_loss_limit", .int c.consecutiveLossLimit)]

def circuitSha256 (c : CircuitAssessment) : String := c.payload.sha256

/-- The evidence made of expected values. -/
def ofValues (request : RiskRequest) (managedState : ManagedPortfolioState)
    (values : Circuit.Values) : Fields where
  request := request
  managedState := managedState
  disposition := values.disposition
  reason := values.reason
  triggeredBreakers := values.triggeredBreakers
  sessionLossQuote := _canonical values.sessionLossQuote
  sessionLossLimitQuote := _canonical values.sessionLossLimitQuote
  drawdownQuote := _canonical values.drawdownQuote
  drawdownLimitQuote := _canonical values.drawdownLimitQuote
  consecutiveLosses := values.consecutiveLosses
  consecutiveLossLimit := values.consecutiveLossLimit

end CircuitAssessment

def assessCircuitBreakers (request : RiskRequest) (managedState : ManagedPortfolioState) :
    Except CircuitBreakerError CircuitAssessment := do
  let values ← Circuit._values request managedState
  construct (CircuitAssessment.ofValues request managedState values).postInit fun h => ⟨_, h⟩

namespace Circuit

/-- The evidence is built exactly when all its numbers have a plain text. -/
theorem postInit_ofValues {r : RiskRequest} {s : ManagedPortfolioState} {v : Values}
    (hv : _values r s = .ok v) :
    (CircuitAssessment.ofValues r s v).postInit = .ok () ↔
      ∀ d ∈ [v.sessionLossQuote, v.sessionLossLimitQuote, v.drawdownQuote, v.drawdownLimitQuote],
        decimalPattern (_canonical d) = true := by
  have hr : (CircuitAssessment.ofValues r s v).request = r := rfl
  have hs : (CircuitAssessment.ofValues r s v).managedState = s := rfl
  unfold CircuitAssessment.Fields.postInit CircuitAssessment._quote
  rw [hr, hs, hv, ok_bind]
  simp [unit_bind_eq_ok, CircuitAssessment.ofValues]

theorem assess_eq_ok {r : RiskRequest} {s : ManagedPortfolioState} {c : CircuitAssessment} :
    assessCircuitBreakers r s = .ok c ↔
      ∃ v, _values r s = .ok v ∧ c.toFields = CircuitAssessment.ofValues r s v := by
  unfold assessCircuitBreakers
  rw [bind_eq_ok]
  constructor
  · rintro ⟨v, hv, hc⟩
    obtain ⟨h, rfl⟩ := construct_eq_ok.mp hc
    exact ⟨v, hv, rfl⟩
  · rintro ⟨v, hv, hc⟩
    obtain ⟨f, hf⟩ := c
    subst hc
    exact ⟨v, hv, construct_of_ok hf⟩

end Circuit

end TradingLab
