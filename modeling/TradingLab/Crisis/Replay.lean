import TradingLab.Crisis.Snapshot
import TradingLab.Decimal.Trim
import TradingLab.Validation.PaperRunner

/-!
# The replay of the Crisis Lab

The replay takes the strategy, the engine, the ledger, the tracker and the veto of
the forward runner, and has a loop of its own. An hour whose candle is missing is
skipped; at a decision whose view is stale the strategy is not asked.
-/

namespace TradingLab

open Decimal PaperRunner

namespace Crisis

namespace CrisisEvent

structure Fields where
  sequence : ℤ
  decisionTimeMs : ℤ
  eligibleFillOpenTimeMs : ℤ
  snapshot : CrisisLabMarketSnapshot

def Fields.postInit (e : Fields) : Except BacktestClockError Unit :=
  raiseIf (e.sequence < 0 ∨ e.decisionTimeMs ≤ 0 ∨
      e.decisionTimeMs % primaryInterval.milliseconds ≠ 0 ∨
      e.eligibleFillOpenTimeMs ≠ e.decisionTimeMs ∨ e.snapshot.decisionTimeMs ≠ e.decisionTimeMs)
    ⟨"Decision event violates the P2 clock contract"⟩

end CrisisEvent

/-- A decision event over a view of a history with gaps. -/
structure CrisisEvent extends CrisisEvent.Fields where
  valid : toFields.postInit = .ok ()

namespace CrisisEvent

def build (f : Fields) : Except BacktestClockError CrisisEvent :=
  construct f.postInit fun h => ⟨f, h⟩

def moment (e : CrisisEvent) : Moment :=
  ⟨e.snapshot.symbol, e.decisionTimeMs, e.eligibleFillOpenTimeMs⟩

end CrisisEvent

/-- The events of the remaining decision times, numbered from `sequence`. -/
def _events (d : AcceptedBacktestDataset) :
    ℤ → List ℤ → Except BacktestClockError (List CrisisEvent)
  | _, [] => return []
  | sequence, decisionTime :: times => do
      let snapshot ← (snapshotAt d decisionTime).mapError fun _ =>
        ⟨"Clock could not build a legal point-in-time event"⟩
      let event ← CrisisEvent.build {
        sequence
        decisionTimeMs := decisionTime
        eligibleFillOpenTimeMs := decisionTime
        snapshot }
      let events ← _events d (sequence + 1) times
      return event :: events

def gridEvents (d : AcceptedBacktestDataset) : Except BacktestClockError (List CrisisEvent) :=
  _events d 0 (timeRange d.spec.startTimeMs d.spec.endTimeMs primaryInterval.milliseconds)

variable {d : AcceptedBacktestDataset}

theorem events_eq_ok {times : List ℤ} {n : ℤ} {cs : List CrisisEvent}
    (h : _events d n times = .ok cs) : cs.map (fun c => c.decisionTimeMs) = times ∧
      ∀ c ∈ cs, c.eligibleFillOpenTimeMs = c.decisionTimeMs ∧
        c.snapshot.toFields = suffixes d c.decisionTimeMs := by
  induction times generalizing n cs with
  | nil =>
    cases h
    exact ⟨rfl, nofun⟩
  | cons t times ih =>
    unfold _events at h
    obtain ⟨snapshot, hsnapshot, h⟩ := bind_eq_ok.mp h
    obtain ⟨event, hevent, h⟩ := bind_eq_ok.mp h
    obtain ⟨events, hevents, h⟩ := bind_eq_ok.mp h
    cases h
    obtain ⟨_, rfl⟩ := construct_eq_ok.mp hevent
    obtain ⟨htimes, hviews⟩ := ih hevents
    refine ⟨by rw [List.map_cons, htimes], ?_⟩
    rw [List.forall_mem_cons]
    exact ⟨⟨rfl, snapshotAt_eq_ok (mapError_eq_ok.mp hsnapshot)⟩, hviews⟩

theorem gridEvents_eq_ok {cs : List CrisisEvent} (h : gridEvents d = .ok cs) :
    cs.map (fun c => c.decisionTimeMs) =
        timeRange d.spec.startTimeMs d.spec.endTimeMs primaryInterval.milliseconds ∧
      ∀ c ∈ cs, Hour d c.decisionTimeMs ∧ c.eligibleFillOpenTimeMs = c.decisionTimeMs ∧
        c.snapshot.toFields = suffixes d c.decisionTimeMs := by
  obtain ⟨htimes, hviews⟩ := events_eq_ok h
  refine ⟨htimes, ?_⟩
  intro c hc
  refine ⟨?_, hviews c hc⟩
  apply Hour.of_mem
  rw [← htimes]
  exact List.mem_map_of_mem hc

theorem length_gridEvents {cs : List CrisisEvent} (h : gridEvents d = .ok cs) :
    (cs.length : ℤ) * 3600000 = d.spec.endTimeMs - d.spec.startTimeMs := by
  obtain ⟨⟨-, hlt, hstart, hstop⟩, -⟩ := d.spec.facts
  have hhour : primaryInterval.milliseconds = 3600000 := rfl
  have hlength := congrArg List.length (gridEvents_eq_ok h).1
  rw [List.length_map, length_timeRange, hhour] at hlength
  omega

/-- Whether the hour an event is filled in has a candle. -/
def HasFill (d : AcceptedBacktestDataset) (e : CrisisEvent) : Prop :=
  ∃ c ∈ d.primary, c.openTimeMs = e.eligibleFillOpenTimeMs

instance (d : AcceptedBacktestDataset) (e : CrisisEvent) : Decidable (HasFill d e) := by
  unfold HasFill
  infer_instance

inductive CrisisRunError where
  | replay (message : String)
  | clock (e : BacktestClockError)
  | regime (e : RegimeError)
  | evaluator (e : EvaluatorError)
  | runner (e : ForwardPaperRunnerError)
  | intent (e : FillModelError)
  | session (e : PaperSession.RunError)
  /-- `dataset.primary[-1]` of an empty tuple. -/
  | index

structure Counts where
  entry : ℕ := 0
  allowed : ℕ := 0
  blocked : ℕ := 0
  exit : ℕ := 0
  noTrade : ℕ := 0
  /-- Never counted up. -/
  staleEntryBlocked : ℕ := 0
  staleSnapshot : ℕ := 0
deriving Repr, DecidableEq

structure TraceRow where
  sequence : ℤ
  decisionTimeMs : ℤ
  contextSha256 : String
  regime : String
  regimeReason : String
  strategyAction : String
  strategyReason : String
  effectiveIntent : IntentAction
  snapshotFresh : Bool
  staleEntryBlocked : Bool
  entryVeto : Option EntrySafetyVeto
  riskState : ValidationRiskState
  fillCount : ℕ
  postPositionQuantity : String
  postEquityQuote : String
deriving Repr, DecidableEq

structure Replay where
  session : PaperSession
  riskTracker : _RiskTracker
  activeSetup : Option LongSetup
  trace : List TraceRow
  fills : List FillRecord
  counts : Counts
  regimeCounts : MarketRegime → ℕ

def Replay.init (spec : BacktestSpec) : Replay where
  session := .init spec
  riskTracker := .init spec.symbol CandidateFreeze.initialEquityQuote
  activeSetup := none
  trace := []
  fills := []
  counts := {}
  regimeCounts := fun _ => 0

def _plain (d : Decimal) : String := if d ≈ 0 then "0" else PaperRunner._plain d

theorem toRat_plain (d : Decimal) : (ofText (_plain d)).toRat = d.toRat := by
  unfold _plain
  split_ifs with hzero
  · exact toRat_zero.trans ((equiv_def.mp hzero).trans toRat_zero).symm
  · exact toRat_ofText_trimFraction d

def _intent (f : PaperIntent.Fields) : Except CrisisRunError PaperIntent :=
  (construct f.postInit fun h => (⟨f, h⟩ : PaperIntent)).mapError .intent

/-- The intent of a decision, with the veto of an entry. -/
def _choose (decisionTimeMs : ℤ) (decision : StrategyDecision) (state : ValidationRiskState)
    (counts : Counts) : Except CrisisRunError (Option EntrySafetyVeto × PaperIntent × Counts) :=
  match decision.action with
  | .enterLong => do
      let veto ← (assessFixedQuantityEntry decision state).mapError .runner
      if veto.allowed then
        let intent ← _intent {
          action := .enterLong
          decisionTimeMs
          quantity := runnerQuantity
          stopPrice := decision.setup.map fun s => s.invalidationPrice
          targetPrice := decision.setup.map fun s => s.targetPrice }
        return (some veto, intent,
          { counts with entry := counts.entry + 1, allowed := counts.allowed + 1 })
      else
        let intent ← _intent { action := .hold, decisionTimeMs }
        return (some veto, intent,
          { counts with entry := counts.entry + 1, blocked := counts.blocked + 1 })
  | .exitLong => do
      let intent ← _intent { action := .exitLong, decisionTimeMs }
      return (none, intent, { counts with exit := counts.exit + 1 })
  | .noTrade => do
      let intent ← _intent { action := .hold, decisionTimeMs }
      return (none, intent, { counts with noTrade := counts.noTrade + 1 })

/-- What the strategy made of a fresh view. -/
structure Evaluated where
  regime : RegimeResult
  decision : StrategyDecision

/-- What is decided at an event, before anything is filled. -/
structure Decided where
  riskState : ValidationRiskState
  riskTracker : _RiskTracker
  /-- Nothing, when the view is stale. -/
  evaluated : Option Evaluated
  veto : Option EntrySafetyVeto
  intent : PaperIntent
  counts : Counts
  regimeCounts : MarketRegime → ℕ

/-- The candle an event is filled in, and the check of what the event shows. -/
def _fillCandle (dataset : AcceptedBacktestDataset) (event : CrisisEvent) :
    Except CrisisRunError Candle :=
  match dataset.primary.find? fun c => c.openTimeMs = event.eligibleFillOpenTimeMs with
  | none => .error (.replay "historical next-open candle is missing or not closed")
  | some candle => do
      raiseIf (¬ candle.isClosed) (.replay "historical next-open candle is missing or not closed")
      raiseIf (∃ c ∈ event.snapshot.primary ++ event.snapshot.context ++ event.snapshot.regime,
          event.decisionTimeMs ≤ c.closeTimeMs)
        (.replay "historical decision contains future data")
      return candle

/-- What the tracker is shown at an event. -/
def Replay.observation (s : Replay) (event : CrisisEvent) : Except CrisisRunError Observation := do
  let mark := event.snapshot.latestPrimary.close
  let pre ← (s.session.ledger.snapshot mark).mapError fun e => .session (.snapshot e)
  return ⟨event.decisionTimeMs, pre, mark⟩

def Replay.decide (s : Replay) (event : CrisisEvent) : Except CrisisRunError Decided := do
  let observation ← s.observation event
  let observed ← (s.riskTracker.observe observation).mapError .runner
  if fresh : _snapshotIsFresh event.snapshot.toFields then
    let context := StrategyContext.of trendPullbackIdentity (event.snapshot.strict fresh)
    let regime ← (classifyRegime context).mapError .regime
    let decision ← (evaluateTrendPullback context (Decidable.decide s.session.engine.hasPosition)
      s.activeSetup).mapError .evaluator
    let chosen ← _choose event.decisionTimeMs decision observed.1 s.counts
    return {
      riskState := observed.1
      riskTracker := observed.2
      evaluated := some ⟨regime, decision⟩
      veto := chosen.1
      intent := chosen.2.1
      counts := chosen.2.2
      regimeCounts := Function.update s.regimeCounts regime.regime
        (s.regimeCounts regime.regime + 1) }
  else
    let intent ← _intent { action := .hold, decisionTimeMs := event.decisionTimeMs }
    return {
      riskState := observed.1
      riskTracker := observed.2
      evaluated := none
      veto := none
      intent
      counts := { s.counts with
        staleSnapshot := s.counts.staleSnapshot + 1
        noTrade := s.counts.noTrade + 1 }
      regimeCounts := s.regimeCounts }

/-- The setup that goes with the position after the fills of an event. -/
def _activeSetup (held : Bool) (intent : PaperIntent) (evaluated : Option Evaluated)
    (active : Option LongSetup) : Except CrisisRunError (Option LongSetup) :=
  if held then
    match intent.action, evaluated with
    | .enterLong, some e => .ok e.decision.setup
    | _, _ =>
        if active = none then .error (.replay "historical Paper position lost its frozen setup")
        else .ok active
  else .ok none

/-- The digest of a view the strategy was not asked about. -/
def staleContextSha256 (event : CrisisEvent) : String :=
  Json.sha256 (.dict [
    ("symbol", .str event.snapshot.symbol.value),
    ("decision_time_ms", .int event.decisionTimeMs),
    ("primary", .list (event.snapshot.primary.map Candle.asRecord)),
    ("context", .list (event.snapshot.context.map Candle.asRecord)),
    ("regime", .list (event.snapshot.regime.map Candle.asRecord)),
    ("crl_stale_history", .bool true)])

def _row (event : CrisisEvent) (decided : Decided) (fillCount : ℕ) (post : PortfolioSnapshot) :
    TraceRow where
  sequence := event.sequence
  decisionTimeMs := event.decisionTimeMs
  contextSha256 := match decided.evaluated with
    | some e => e.decision.contextSha256
    | none => staleContextSha256 event
  regime := match decided.evaluated with
    | some e => e.regime.regime.value
    | none => "CRL_STALE_HISTORY"
  regimeReason := match decided.evaluated with
    | some e => e.regime.reason.value
    | none => "CRL_STALE_HISTORY"
  strategyAction := match decided.evaluated with
    | some e => e.decision.action.value
    | none => "NOT_EVALUATED"
  strategyReason := match decided.evaluated with
    | some e => e.decision.reason.value
    | none => "CRL_STALE_HISTORY"
  effectiveIntent := decided.intent.action
  snapshotFresh := Decidable.decide (_snapshotIsFresh event.snapshot.toFields)
  staleEntryBlocked := false
  entryVeto := decided.veto
  riskState := decided.riskState
  fillCount := fillCount
  postPositionQuantity := _plain post.assetQuantity
  postEquityQuote := _plain post.equityQuote

/-- Fill the intent and write the row. -/
def Replay.settle (s : Replay) (event : CrisisEvent) (candle : Candle) (decided : Decided) :
    Except CrisisRunError Replay := do
  let filled ← (s.session.acceptAt ⟨event.moment, decided.intent, candle⟩).mapError .session
  let activeSetup ← _activeSetup (Decidable.decide filled.2.engine.hasPosition) decided.intent
    decided.evaluated s.activeSetup
  let post ← (filled.2.ledger.snapshot candle.open').mapError fun e => .session (.snapshot e)
  return {
    session := filled.2
    riskTracker := decided.riskTracker
    activeSetup
    trace := s.trace ++ [_row event decided filled.1.length post]
    fills := s.fills ++ filled.1.map PaperRunner._fillRecord
    counts := decided.counts
    regimeCounts := decided.regimeCounts }

def Replay.step (dataset : AcceptedBacktestDataset) (s : Replay) (event : CrisisEvent) :
    Except CrisisRunError Replay := do
  let candle ← _fillCandle dataset event
  let decided ← s.decide event
  s.settle event candle decided

/-- The loop over the events. -/
def Replay.steps (dataset : AcceptedBacktestDataset) (events : List CrisisEvent) (s : Replay) :
    Except CrisisRunError Replay :=
  events.foldlM (Replay.step dataset) s

/-- The events on the grid of hours, and those that have a candle to be filled in. -/
def legalEvents (dataset : AcceptedBacktestDataset) :
    Except CrisisRunError (List CrisisEvent × List CrisisEvent) := do
  raiseIf (¬ (dataset.primary.map fun c => c.openTimeMs).Nodup)
    (.replay "historical primary candles are duplicated")
  let grid ← (gridEvents dataset).mapError .clock
  let events := grid.filter fun e => HasFill dataset e
  raiseIf (events = []) (.replay "historical replay has no legal decision event")
  return (grid, events)

structure Outcome where
  eventCount : ℕ
  gridEventCount : ℕ
  missingFillDecisionCount : ℕ
  counts : Counts
  regimeCounts : MarketRegime → ℕ
  killSwitchLatched : Bool
  trace : List TraceRow
  fills : List FillRecord
  finalPortfolio : PortfolioRecord

/-- The outcome of a dataset, before its economics. -/
def _replay (dataset : AcceptedBacktestDataset) : Except CrisisRunError Outcome := do
  let (grid, events) ← legalEvents dataset
  let s ← Replay.steps dataset events (.init dataset.spec)
  match dataset.primary.getLast? with
  | none => .error .index
  | some last => do
      let portfolio ← (s.session.ledger.snapshot last.close).mapError
        fun e => .session (.snapshot e)
      return {
        eventCount := events.length
        gridEventCount := grid.length
        missingFillDecisionCount := grid.length - events.length
        counts := s.counts
        regimeCounts := s.regimeCounts
        killSwitchLatched := s.riskTracker.killSwitchActive
        trace := s.trace
        fills := s.fills
        finalPortfolio := _portfolioRecord portfolio }

end Crisis

end TradingLab
