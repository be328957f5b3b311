import TradingLab.StrategyLab.Ablation
import TradingLab.StrategyLab.Techniques
import TradingLab.StrategyLab.Recovery

/-!
# The four labs

The walk-forward lab runs the frozen candidates, the risk overlay puts a tracker
and the entry veto between a candidate and its entries, the ablations remove one of
its filters, and the momentum lab has a candidate of its own.
-/

namespace TradingLab

open Decimal RiskOverlay

namespace StrategyLab

/-- A candidate is asked about a view and the position. -/
def asking {σ α : Type} (s : CellState σ) (event : Crisis.CrisisEvent)
    (fresh : Crisis._snapshotIsFresh event.snapshot.toFields) (identity : StrategyIdentity)
    (evaluate : StrategyContext → Bool → Option LongSetup → α) : α :=
  evaluate (.of identity (event.snapshot.strict fresh)) (decide s.session.engine.hasPosition)
    s.activeSetup

def walkForward (candidate : Ablation.StrategyId) : Lab Unit where
  name := "HSL"
  overlap := "trade accounting overlapped positions"
  countsMissing := true
  keepsSetup := true
  start := fun _ => .ok ()
  decide := fun s event candle =>
    if fresh : Crisis._snapshotIsFresh event.snapshot.toFields then do
      let decision ← (asking s event fresh candidate.identity candidate.evaluate).mapError .evaluator
      _choose event candle (ask decision) s.counts s.own fun setup => do
        let intent ← _enter event setup
        return (intent, ())
    else _stale event s.counts s.own
  benchmark := fun _ => .ok none

inductive Arm where
  | reference
  | challenger (cooldownPrimaryDecisions : ℤ)

inductive Tracker where
  | reference (t : _ReferenceRiskTracker)
  | challenger (t : _RecoveryCooldownRiskTracker)

namespace Tracker

def hardLatched : Tracker → Bool
  | reference t => t.hardLatched
  | challenger t => t.hardLatched

def observe (o : Observation) : Tracker → Except CellError (ValidationRiskState × Tracker)
  | reference t => do
      let (state, t) ← (t.observe o).mapError .runner
      return (state, reference t)
  | challenger t => do
      let (state, t) ← (t.observe o).mapError fun e => .lab e.message
      return (state, challenger t)

end Tracker

def _trackerForArm (arm : Arm) (symbol : Symbol) : Except CellError Tracker :=
  match arm with
  | .reference => .ok (.reference (.init symbol CandidateFreeze.initialEquityQuote))
  | .challenger cooldownPrimaryDecisions => do
      let t ← (_RecoveryCooldownRiskTracker.init symbol CandidateFreeze.initialEquityQuote
        cooldownPrimaryDecisions).mapError fun e => .lab e.message
      return .challenger t

structure Overlay where
  tracker : Tracker
  riskBlockedEntry : ℕ := 0
  vetoReasonCounts : EntryVetoReason → ℕ := fun _ => 0

namespace Overlay

/-- What the tracker is shown at an event. -/
def observation (s : CellState Overlay) (event : Crisis.CrisisEvent) :
    Except CellError Observation := do
  let mark := event.snapshot.latestPrimary.close
  let pre ← (s.session.ledger.snapshot mark).mapError fun e => .session (.snapshot e)
  return ⟨event.decisionTimeMs, pre, mark⟩

def blocked (o : Overlay) (veto : EntrySafetyVeto) : Overlay :=
  { o with
    riskBlockedEntry := o.riskBlockedEntry + 1
    vetoReasonCounts := fun reason => o.vetoReasonCounts reason + veto.reasons.count reason }

/-- An entry in its bracket has to pass the veto. -/
def enter (o : Overlay) (event : Crisis.CrisisEvent) (decision : StrategyDecision)
    (riskState : ValidationRiskState) (setup : LongSetup) :
    Except CellError (PaperIntent × Overlay) := do
  let veto ← (assessFixedQuantityEntry decision riskState).mapError .runner
  if veto.allowed then
    raiseIf (o.tracker.hardLatched = true) (.lab "hard drawdown latch was bypassed")
    let intent ← _enter event setup
    return (intent, o)
  else
    let intent ← _hold event
    return (intent, o.blocked veto)

end Overlay

def riskOverlay (candidate : Ablation.StrategyId) (arm : Arm) : Lab Overlay where
  name := "HSL-002"
  overlap := "overlapping trade accounting"
  countsMissing := false
  keepsSetup := true
  start := fun symbol => do
    let tracker ← _trackerForArm arm symbol
    return { tracker }
  decide := fun s event candle => do
    let observation ← Overlay.observation s event
    let (riskState, tracker) ← s.own.tracker.observe observation
    let own := { s.own with tracker }
    if fresh : Crisis._snapshotIsFresh event.snapshot.toFields then
      let decision ← (asking s event fresh candidate.identity candidate.evaluate).mapError .evaluator
      _choose event candle (ask decision) s.counts own (own.enter event decision riskState)
    else _stale event s.counts own
  benchmark := fun _ => .ok none

/-- How often the removed filter was found to pass and to block. -/
structure Filtered where
  filterPass : ℕ := 0
  filterBlock : ℕ := 0
deriving Repr, DecidableEq

def Filtered.add (f : Filtered) (target : Ablation.TargetRecord) : Filtered where
  filterPass := f.filterPass + if target.targetFilterPassed then 1 else 0
  filterBlock := f.filterBlock + if target.targetFilterBlocked then 1 else 0

def CellError.ofAblation : HSLAblationError → CellError
  | .ablation message => .lab message
  | .evaluator e => .evaluator e
  | .contract e => .contract e

def ablation (experiment : Ablation.Experiment) : Lab Filtered where
  name := "HSL-003"
  overlap := "overlapping trade accounting"
  countsMissing := false
  keepsSetup := true
  start := fun _ => .ok {}
  decide := fun s event candle =>
    if fresh : Crisis._snapshotIsFresh event.snapshot.toFields then do
      let (decision, target) ← (asking s event fresh experiment.strategyId.identity
        (Ablation._evaluateExperiment experiment)).mapError .ofAblation
      let own := s.own.add target
      _choose event candle (ask decision) s.counts own fun setup => do
        let intent ← _enter event setup
        return (intent, own)
    else _stale event s.counts s.own
  benchmark := fun _ => .ok none

/-- How often each reason was given. -/
abbrev ReasonCounts := String → ℕ

def momentum : Lab ReasonCounts where
  name := "HSL-004A"
  overlap := "overlapping trade accounting"
  countsMissing := true
  keepsSetup := false
  start := fun _ => .ok fun _ => 0
  decide := fun s event candle =>
    if Crisis._snapshotIsFresh event.snapshot.toFields then do
      let decision ← Momentum._evaluate event.snapshot event.decisionTimeMs
        (decide s.session.engine.hasPosition)
      let own := Function.update s.own decision.reason (s.own decision.reason + 1)
      _choose event candle decision.ask s.counts own fun setup => do
        let intent ← _enter event setup
        return (intent, own)
    else _stale event s.counts s.own
  benchmark := fun analysis => do
    let buyHold ← Momentum._buyHoldReturn analysis
    return some buyHold

inductive Cell where
  | walkForward (candidate : Ablation.StrategyId)
  | riskOverlay (candidate : Ablation.StrategyId) (arm : Arm)
  | ablation (experiment : Ablation.Experiment)
  | momentum

/-- What the lab of a cell keeps of its own. -/
def Cell.Own : Cell → Type
  | walkForward _ => Unit
  | riskOverlay _ _ => Overlay
  | ablation _ => Filtered
  | momentum => ReasonCounts

def Cell.lab : (c : Cell) → Lab c.Own
  | walkForward candidate => StrategyLab.walkForward candidate
  | riskOverlay candidate arm => StrategyLab.riskOverlay candidate arm
  | ablation experiment => StrategyLab.ablation experiment
  | momentum => StrategyLab.momentum

end StrategyLab

end TradingLab
