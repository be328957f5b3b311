import TradingLab.Backtest.Intents

/-!
# Strategy contracts

A decision is bound to the context it was taken in, and the context to a
snapshot of the market. An entry carries a setup, and nothing else does; each
action has its own reasons.
-/

namespace TradingLab

structure StrategyContractError where
  message : String
deriving Repr, DecidableEq

inductive StrategyAction where
  | noTrade
  | enterLong
  | exitLong
deriving Repr, DecidableEq

def StrategyAction.value : StrategyAction → String
  | noTrade => "NO_TRADE"
  | enterLong => "ENTER_LONG"
  | exitLong => "EXIT_LONG"

inductive DecisionReason where
  | insufficientHistory
  | regimeUnknown
  | regimeBlocked
  | setupAbsent
  | confirmationFailed
  | holdPosition
  | trendPullbackEntry
  | breakoutEntry
  | strategyExit
deriving Repr, DecidableEq

def DecisionReason.value : DecisionReason → String
  | insufficientHistory => "INSUFFICIENT_HISTORY"
  | regimeUnknown => "REGIME_UNKNOWN"
  | regimeBlocked => "REGIME_BLOCKED"
  | setupAbsent => "SETUP_ABSENT"
  | confirmationFailed => "CONFIRMATION_FAILED"
  | holdPosition => "HOLD_POSITION"
  | trendPullbackEntry => "TREND_PULLBACK_ENTRY"
  | breakoutEntry => "BREAKOUT_ENTRY"
  | strategyExit => "STRATEGY_EXIT"

def entryReasons : List DecisionReason := [.trendPullbackEntry, .breakoutEntry]

def noTradeReasons : List DecisionReason :=
  [.insufficientHistory, .regimeUnknown, .regimeBlocked, .setupAbsent, .confirmationFailed,
    .holdPosition]

namespace StrategyIdentity

def isUpper (c : Char) : Bool := 'A' ≤ c && c ≤ 'Z'

/-- An upper-case letter and two to thirty-one letters, digits or underscores. -/
def strategyIdPattern (s : String) : Bool :=
  match s.toList with
  | [] => false
  | c :: cs => isUpper c && (cs.all fun d => isUpper d || d.isDigit || d == '_') &&
      2 ≤ cs.length && cs.length ≤ 31

/-- Three numbers, of which only the first must not start with a zero. -/
def versionPattern (s : String) : Bool :=
  let digits := fun cs : List Char => !cs.isEmpty && cs.all Char.isDigit
  match Decimal.splitPoint s.toList with
  | (_, none) => false
  | (major, some rest) =>
      match Decimal.splitPoint rest with
      | (_, none) => false
      | (minor, some patch) =>
          digits major && major.head? != some '0' && digits minor && digits patch

structure Fields where
  strategyId : String
  version : String
deriving Repr, DecidableEq

def Fields.postInit (i : Fields) : Except StrategyContractError Unit :=
  raiseIf (¬ strategyIdPattern i.strategyId ∨ ¬ versionPattern i.version)
    ⟨"Strategy identity is invalid"⟩

end StrategyIdentity

structure StrategyIdentity extends StrategyIdentity.Fields where
  valid : toFields.postInit = .ok ()
deriving DecidableEq

def trendPullbackIdentity : StrategyIdentity := ⟨⟨"TREND_PULLBACK", "1.0.0"⟩, by decide⟩
def breakoutIdentity : StrategyIdentity := ⟨⟨"RANGE_BREAKOUT", "1.0.0"⟩, by decide⟩

namespace StrategyContext

structure Fields where
  identity : StrategyIdentity
  snapshot : MarketSnapshot
  paperOnly : Bool := true
  liveMasterLock : String := "OFF"
  spotOnly : Bool := true
  allowShort : Bool := false
  allowLeverage : Bool := false
deriving DecidableEq

def Fields.postInit (c : Fields) : Except StrategyContractError Unit :=
  raiseIf (c.paperOnly ≠ true ∨ c.liveMasterLock ≠ "OFF" ∨ c.spotOnly ≠ true ∨
      c.allowShort ≠ false ∨ c.allowLeverage ≠ false)
    ⟨"Strategy context or safety policy is invalid"⟩

end StrategyContext

structure StrategyContext extends StrategyContext.Fields where
  valid : toFields.postInit = .ok ()
deriving DecidableEq

namespace StrategyContext

def symbol (c : StrategyContext) : Symbol := c.snapshot.symbol
def decisionTimeMs (c : StrategyContext) : ℤ := c.snapshot.decisionTimeMs

/-- The context of a snapshot under the default safety policy. -/
def of (identity : StrategyIdentity) (snapshot : MarketSnapshot) : StrategyContext :=
  ⟨{ identity, snapshot }, by simp [Fields.postInit]⟩

def payload (c : StrategyContext) : Json := .dict [
  ("strategy_id", .str c.identity.strategyId),
  ("strategy_version", .str c.identity.version),
  ("symbol", .str c.symbol.value),
  ("decision_time_ms", .int c.decisionTimeMs),
  ("primary", .list (c.snapshot.primary.map Candle.asRecord)),
  ("context", .list (c.snapshot.context.map Candle.asRecord)),
  ("regime", .list (c.snapshot.regime.map Candle.asRecord)),
  ("safety", .dict [
    ("paper_only", .bool c.paperOnly),
    ("live_master_lock", .str c.liveMasterLock),
    ("spot_only", .bool c.spotOnly),
    ("allow_short", .bool c.allowShort),
    ("allow_leverage", .bool c.allowLeverage)])]

def contextSha256 (c : StrategyContext) : String := c.payload.sha256

end StrategyContext

def _positive (value field : String) : Except StrategyContractError Decimal := do
  raiseIf (¬ decimalPattern value) ⟨field ++ " must be a plain positive decimal string"⟩
  let number := Decimal.ofText value
  raiseIf (number ≤ 0) ⟨field ++ " must be positive"⟩
  return number

namespace LongSetup

structure Fields where
  referencePrice : String
  invalidationPrice : String
  targetPrice : String
deriving Repr, DecidableEq

def Fields.postInit (s : Fields) : Except StrategyContractError Unit := do
  let reference ← _positive s.referencePrice "reference_price"
  let invalidation ← _positive s.invalidationPrice "invalidation_price"
  let target ← _positive s.targetPrice "target_price"
  raiseIf (¬ (invalidation < reference ∧ reference < target)) ⟨"Long setup levels are invalid"⟩

end LongSetup

structure LongSetup extends LongSetup.Fields where
  valid : toFields.postInit = .ok ()
deriving DecidableEq

namespace LongSetup

def build (f : Fields) : Except StrategyContractError LongSetup :=
  construct f.postInit fun h => ⟨f, h⟩

theorem facts (s : LongSetup) :
    (decimalPattern s.referencePrice ∧ decimalPattern s.invalidationPrice ∧
      decimalPattern s.targetPrice) ∧
    0 < Decimal.ofText s.invalidationPrice ∧
    Decimal.ofText s.invalidationPrice < Decimal.ofText s.referencePrice ∧
    Decimal.ofText s.referencePrice < Decimal.ofText s.targetPrice := by
  have h := s.valid
  unfold Fields.postInit _positive at h
  simp only [bind_eq_ok, raiseIf_eq_ok, exists_const, pure, Except.pure, Except.ok.injEq,
    not_not, Decimal.le_def, not_le] at h
  obtain ⟨r, ⟨hr, -, rfl⟩, i, ⟨hi, h0, rfl⟩, t, ⟨ht, -, rfl⟩, hir, hrt⟩ := h
  exact ⟨⟨hr, hi, ht⟩, h0, hir, hrt⟩

end LongSetup

namespace StrategyDecision

structure Fields where
  context : StrategyContext
  action : StrategyAction
  reason : DecisionReason
  setup : Option LongSetup := none
deriving DecidableEq

def Fields.consistent (d : Fields) : Prop :=
  match d.action with
  | .enterLong => d.setup ≠ none ∧ d.reason ∈ entryReasons
  | .exitLong => d.setup = none ∧ d.reason = .strategyExit
  | .noTrade => d.setup = none ∧ d.reason ∈ noTradeReasons

instance (d : Fields) : Decidable d.consistent := by
  unfold Fields.consistent
  split <;> infer_instance

def Fields.postInit (d : Fields) : Except StrategyContractError Unit :=
  raiseIf (¬ d.consistent) ⟨"Strategy action, reason and setup are inconsistent"⟩

end StrategyDecision

structure StrategyDecision extends StrategyDecision.Fields where
  valid : toFields.postInit = .ok ()
deriving DecidableEq

namespace StrategyDecision

def build (f : Fields) : Except StrategyContractError StrategyDecision :=
  construct f.postInit fun h => ⟨f, h⟩

def strategyId (d : StrategyDecision) : String := d.context.identity.strategyId
def strategyVersion (d : StrategyDecision) : String := d.context.identity.version
def symbol (d : StrategyDecision) : Symbol := d.context.symbol
def decisionTimeMs (d : StrategyDecision) : ℤ := d.context.decisionTimeMs
def contextSha256 (d : StrategyDecision) : String := d.context.contextSha256

theorem consistent (d : StrategyDecision) : d.toFields.consistent := by
  have h := d.valid
  unfold Fields.postInit at h
  rwa [raiseIf_eq_ok, not_not] at h

theorem setup_of_enter (d : StrategyDecision) (h : d.action = .enterLong) : d.setup ≠ none := by
  have hc := d.consistent
  rw [Fields.consistent, h] at hc
  exact hc.1

theorem of_exit (d : StrategyDecision) (h : d.action = .exitLong) :
    d.setup = none ∧ d.reason = .strategyExit := by
  have hc := d.consistent
  rwa [Fields.consistent, h] at hc

end StrategyDecision

end TradingLab
