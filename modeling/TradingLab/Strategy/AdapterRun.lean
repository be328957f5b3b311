import TradingLab.Backtest.Clock
import TradingLab.Backtest.FillRefusal
import TradingLab.Strategy.Adapter

/-!
# Candidates and the adapter over a run

The adapter asks for a matching decision: hold or exit over a position, anything
else without one. A candidate returns nothing else, except that a position could
meet a history too short. It never does, because the entry saw enough and later
snapshots show more. What is left to refuse is the market: a next open outside
the bracket, or too little volume.
-/

namespace TradingLab

open Decimal Method Evaluation List PaperFillEngine

structure Candidate where
  identity : StrategyIdentity
  evaluate : StrategyContext → Bool → Option LongSetup → Except EvaluatorError StrategyDecision

def candidates : List Candidate :=
  [⟨trendPullbackIdentity, evaluateTrendPullback⟩, ⟨breakoutIdentity, evaluateBreakout⟩]

theorem Candidate.returned {c : Candidate} (hc : c ∈ candidates) : ∃ warmup : ℕ,
    ∀ context inPosition setup d, c.evaluate context inPosition setup = .ok d →
      context.identity = c.identity ∧ Returned warmup context inPosition d := by
  simp only [candidates, mem_cons, not_mem_nil, or_false] at hc
  rcases hc with rfl | rfl
  · exact ⟨_, fun _ _ _ _ h => Trend.returned h⟩
  · exact ⟨_, fun _ _ _ _ h => Breakout.returned h⟩

theorem Candidate.supported {c : Candidate} (hc : c ∈ candidates) :
    c.identity ∈ RiskAdapter.supportedIdentities := by
  simp only [candidates, mem_cons, not_mem_nil, or_false] at hc
  rcases hc with rfl | rfl
  · exact mem_cons_self
  · exact mem_cons_of_mem _ mem_cons_self

namespace ResearchSignalAdapter

variable {s : ResearchSignalAdapter} {decision : StrategyDecision} {c : Call}
  {intent : PaperIntent}

inductive Translates (s : ResearchSignalAdapter) (decision : StrategyDecision) :
    PaperIntent.Fields → Prop where
  | exit (held : s.hasPosition) (action : decision.action = .exitLong) :
      Translates s decision { action := .exitLong, decisionTimeMs := decision.decisionTimeMs }
  | hold (held : s.hasPosition) (action : decision.action = .noTrade) :
      Translates s decision { action := .hold, decisionTimeMs := decision.decisionTimeMs }
  | enter (flat : ¬ s.hasPosition) (action : decision.action = .enterLong) {setup : LongSetup}
      (setup_eq : decision.setup = some setup) :
      Translates s decision {
        action := .enterLong
        decisionTimeMs := decision.decisionTimeMs
        quantity := fixedResearchQuantity
        stopPrice := setup.invalidationPrice
        targetPrice := setup.targetPrice }
  | quiet (flat : ¬ s.hasPosition) (action : decision.action = .noTrade) :
      Translates s decision { action := .hold, decisionTimeMs := decision.decisionTimeMs }

/-- The intent of a decision, with the way it was translated. -/
structure Translated (s : ResearchSignalAdapter) (decision : StrategyDecision)
    (intent : PaperIntent) : Prop where
  of_intent : s._intent decision = .ok intent
  translates : Translates s decision intent.toFields

variable {f : PaperIntent.Fields} {step : AdapterStep}

theorem Translates.expected (h : Translates s decision f) :
    f.action = AdapterStep._expected decision.action ∧
      f.decisionTimeMs = decision.decisionTimeMs := by
  cases h with
  | exit _ ha =>
    rw [ha]
    exact ⟨rfl, rfl⟩
  | hold _ ha =>
    rw [ha]
    exact ⟨rfl, rfl⟩
  | enter _ ha _ =>
    rw [ha]
    exact ⟨rfl, rfl⟩
  | quiet _ ha =>
    rw [ha]
    exact ⟨rfl, rfl⟩

theorem paper_of_valid (h : f.postInit = .ok ()) :
    _paper f = .ok ⟨f, h⟩ := by
  unfold _paper PaperIntent.build
  rw [construct_of_ok h]
  rfl

theorem postInit_plain {action : IntentAction} (ha : action ≠ .enterLong) :
    ({ action, decisionTimeMs := decision.decisionTimeMs } : PaperIntent.Fields).postInit =
      .ok () := by
  have htime := decision.context.snapshot.facts.1
  have hour : primaryInterval.milliseconds = 3600000 := rfl
  unfold PaperIntent.Fields.postInit
  rw [raiseIf_bind_eq_ok, if_neg ha, raiseIf_eq_ok, hour]
  refine ⟨?_, by simp⟩
  unfold StrategyDecision.decisionTimeMs StrategyContext.decisionTimeMs
  dsimp only
  omega

/-- The setup of an entry makes a valid bracket. -/
theorem postInit_entry {setup : LongSetup} :
    ({ action := .enterLong
       decisionTimeMs := decision.decisionTimeMs
       quantity := fixedResearchQuantity
       stopPrice := setup.invalidationPrice
       targetPrice := setup.targetPrice } : PaperIntent.Fields).postInit = .ok () := by
  have htime := decision.context.snapshot.facts.1
  have hour : primaryInterval.milliseconds = 3600000 := rfl
  obtain ⟨⟨preference, pstop, ptarget⟩, hstop, hlow, hhigh⟩ := setup.facts
  rw [lt_def] at hstop hlow hhigh
  have htarget : (0 : Decimal).toRat < (ofText setup.targetPrice).toRat :=
    hstop.trans (hlow.trans hhigh)
  have hquantity : decimalPattern fixedResearchQuantity ∧
      0 < ofText fixedResearchQuantity := by decide
  unfold PaperIntent.Fields.postInit
  rw [raiseIf_bind_eq_ok, if_pos rfl]
  simp only [bind_eq_ok, PaperIntent._entryField_eq_ok, raiseIf_eq_ok, Option.some.injEq,
    exists_eq_left', le_def, hour]
  refine ⟨?_, _, ⟨hquantity.1, hquantity.2, rfl⟩, _, ⟨pstop, hstop, rfl⟩, _,
    ⟨ptarget, htarget, rfl⟩, ?_⟩
  · unfold StrategyDecision.decisionTimeMs StrategyContext.decisionTimeMs
    omega
  · rw [not_or, not_le, not_le]
    exact ⟨hquantity.2, hlow.trans hhigh⟩

/-- A decision that matches the position has its intent. -/
theorem translated_of_matching
    (hheld : s.hasPosition → decision.action = .exitLong ∨
      (decision.action = .noTrade ∧ decision.reason = .holdPosition))
    (hflat : ¬ s.hasPosition → decision.action = .enterLong ∨
      (decision.action = .noTrade ∧ decision.reason ≠ .holdPosition)) :
    ∃ intent, Translated s decision intent := by
  by_cases hpos : s.hasPosition
  · rcases hheld hpos with ha | ⟨ha, hr⟩
    · have hvalid := @postInit_plain decision .exitLong (by decide)
      refine ⟨⟨_, hvalid⟩, ?_, .exit hpos ha⟩
      rw [_intent, if_pos hpos, if_pos ha, paper_of_valid hvalid]
    · have hvalid := @postInit_plain decision .hold (by decide)
      refine ⟨⟨_, hvalid⟩, ?_, .hold hpos ha⟩
      rw [_intent, if_pos hpos, if_neg (by rw [ha]; decide), if_pos ⟨ha, hr⟩,
        paper_of_valid hvalid]
  · rcases hflat hpos with ha | ⟨ha, hr⟩
    · obtain ⟨setup, hsetup⟩ := Option.ne_none_iff_exists'.mp (decision.setup_of_enter ha)
      have hvalid := @postInit_entry decision setup
      refine ⟨⟨_, hvalid⟩, ?_, .enter hpos ha hsetup⟩
      rw [_intent, if_neg hpos, if_pos ha, hsetup]
      exact paper_of_valid hvalid
    · have hvalid := @postInit_plain decision .hold (by decide)
      refine ⟨⟨_, hvalid⟩, ?_, .quiet hpos ha⟩
      rw [_intent, if_neg hpos, if_neg (by rw [ha]; decide), if_pos ⟨ha, hr⟩,
        paper_of_valid hvalid]

def Agrees (s : ResearchSignalAdapter) : Prop := s.hasPosition ↔ s._fillEngine.hasPosition

theorem postInit_step {fills : List FillReference} {engine : PaperFillEngine}
    (htranslated : Translated s c.decision intent)
    (hsymbol : s._fillEngine.symbol = c.decision.symbol)
    (htime : c.decision.decisionTimeMs = c.event.decisionTimeMs)
    (hp : (PaperFillEngine.process ⟨c.event, intent, c.fillCandle⟩).call s._fillEngine =
      (.ok fills, engine)) :
    (⟨c.decision, intent, fills⟩ : AdapterStep.Fields).postInit = .ok () := by
  have hemits := (call_process_eq_ok hp).2
  have hlength := hemits.length_le.1
  obtain ⟨haction, hintent⟩ := htranslated.translates.expected
  unfold AdapterStep.Fields.postInit
  rw [raiseIf_bind_eq_ok, raiseIf_bind_eq_ok, raiseIf_eq_ok]
  refine ⟨?_, not_not.mpr haction, ?_⟩
  · dsimp only
    omega
  rintro ⟨r, hr, hbad⟩
  obtain ⟨hrsymbol, hrtime⟩ := hemits.reference r hr
  have hsame := r.facts.1.2.1
  rcases hbad with hbad | hbad
  · exact hbad (hrsymbol.trans hsymbol)
  · apply hbad
    rw [← hsame, hrtime]
    exact htime.symm

/-- The adapter after the engine has moved and the position was remembered. -/
def moved (s : ResearchSignalAdapter) (engine : PaperFillEngine) (step : AdapterStep) :
    ResearchSignalAdapter := _remember step { s with _fillEngine := engine }

theorem engine_moved {engine : PaperFillEngine} :
    (moved s engine step)._fillEngine = engine := by
  unfold moved _remember
  split_ifs <;> rfl

/-- Whatever the engine emitted, the remembered setup follows its position. -/
theorem agrees_moved {engine : PaperFillEngine} (hs : Agrees s)
    (hp : (PaperFillEngine.process ⟨c.event, step.intent, c.fillCandle⟩).call s._fillEngine =
      (.ok step.fills, engine)) : Agrees (moved s engine step) := by
  unfold Agrees
  rw [engine_moved]
  unfold moved _remember
  by_cases hentry : step.intent.action = .enterLong ∧ engine.hasPosition
  · -- an entry whose position is still open
    rw [if_pos hentry]
    refine ⟨fun _ => hentry.2, fun _ => ?_⟩
    have hv := step.valid
    unfold AdapterStep.Fields.postInit at hv
    rw [raiseIf_bind_eq_ok, raiseIf_bind_eq_ok, not_not] at hv
    have hexpected := hv.2.1.symm.trans hentry.1
    have haction : step.decision.action = .enterLong := by
      generalize step.decision.action = action at hexpected
      cases action with
      | enterLong => rfl
      | noTrade => cases hexpected
      | exitLong => cases hexpected
    exact step.decision.setup_of_enter haction
  · rw [if_neg hentry]
    by_cases hopen : engine.hasPosition
    · -- no entry: the position was open before and was left alone
      rw [if_neg (not_not.mpr hopen)]
      have hno : step.intent.action ≠ .enterLong := fun ha => hentry ⟨ha, hopen⟩
      refine ⟨fun _ => hopen, fun _ => hs.mpr (not_not.mp fun hflat => ?_)⟩
      have hbefore := openQuantity_eq_none.mpr hflat
      rcases call_process_no_enter hp hno with hsame | hnone
      · exact openQuantity_eq_none.mp (hsame.trans hbefore) hopen
      · exact openQuantity_eq_none.mp hnone hopen
    · rw [if_pos hopen]
      exact ⟨fun h => (h rfl).elim, fun h => (hopen h).elim⟩

/-- The adapter after a call that returned. -/
def finished (s : ResearchSignalAdapter) (engine : PaperFillEngine) (step : AdapterStep)
    (event : DecisionEvent) : ResearchSignalAdapter :=
  { moved s engine step with
    _lastSequence := some event.sequence
    _lastDecisionTimeMs := some event.decisionTimeMs }

theorem call_settle {engine : PaperFillEngine} (h : Agrees (moved s engine step)) :
    (_settle c step).call { s with _fillEngine := engine } =
      (.ok step, finished s engine step c.event) := by
  have hcheck : raiseIf (¬ ((moved s engine step).hasPosition ↔
      (moved s engine step)._fillEngine.hasPosition))
      (Error.adapter ⟨"Strategy and fill-engine position states diverged"⟩) = .ok () :=
    raiseIf_neg (not_not.mpr h)
  unfold moved at hcheck
  unfold _settle
  rw [call_modify_bind, call_read_bind, id, call_bind, call_check, hcheck]
  rfl

/-- A decision of the event that the adapter can take next. -/
structure Ready (s : ResearchSignalAdapter) (c : Call) : Prop where
  agrees : Agrees s
  valid : s._validate c.event c.decision = .ok ()
  symbol : s._fillEngine.symbol = c.decision.symbol
  time : c.decision.decisionTimeMs = c.event.decisionTimeMs

/-- The adapter takes what the engine takes, and otherwise stays as it was. -/
theorem call_process_cases (hready : Ready s c) (ht : Translated s c.decision intent) :
    let engineCall : PaperFillEngine.Call := ⟨c.event, intent, c.fillCandle⟩
    ((engineCall.Fits s._fillEngine ∧ ¬ s._fillEngine.Refuses engineCall) ∧
      ∃ step engine, (process c).call s = (.ok step, finished s engine step c.event) ∧
        (PaperFillEngine.process engineCall).call s._fillEngine = (.ok step.fills, engine) ∧
        Agrees (finished s engine step c.event)) ∨
    (¬ (engineCall.Fits s._fillEngine ∧ ¬ s._fillEngine.Refuses engineCall) ∧
      (process c).call s = (.error rejected, s)) := by
  dsimp only
  unfold process
  rw [call_read_bind, id, call_bind, call_check, hready.valid]
  simp only [Except.mapError]
  rw [call_bind, call_check, ht.of_intent]
  simp only
  unfold _engine
  rw [call_bind, call_zoom]
  rcases PaperFillEngine.call_process_cases s._fillEngine ⟨c.event, intent, c.fillCandle⟩ with
    ⟨hfits, fills, engine, hp⟩ | ⟨hrefused, e, hp⟩
  · left
    have hvalid := postInit_step ht hready.symbol hready.time hp
    let step : AdapterStep := ⟨_, hvalid⟩
    have hp' : (PaperFillEngine.process ⟨c.event, step.intent, c.fillCandle⟩).call s._fillEngine =
        (.ok step.fills, engine) := hp
    have hagrees := agrees_moved hready.agrees hp'
    rw [hp]
    simp only
    unfold AdapterStep.build
    rw [call_bind, call_check, construct_of_ok hvalid]
    exact ⟨hfits, step, engine, call_settle hagrees, rfl, hagrees⟩
  · right
    rw [hp]
    exact ⟨hrefused, rfl⟩

theorem inside_iff {setup : LongSetup} {bar : Candle} (h : intent.action = .enterLong)
    (hstop : intent.stopPrice = some setup.invalidationPrice)
    (htarget : intent.targetPrice = some setup.targetPrice) :
    PaperFillEngine.Inside (intent.position h) bar ↔
      ofText setup.invalidationPrice < ofText bar.open' ∧
        ofText bar.open' < ofText setup.targetPrice := by
  unfold Inside PaperIntent.position
  simp only [hstop, htarget, Option.get_some]

theorem setup_of_not_enter (ha : decision.action ≠ .enterLong) : decision.setup = none := by
  have hc := decision.consistent
  unfold StrategyDecision.Fields.consistent at hc
  generalize decision.action = action at hc ha
  cases action with
  | enterLong => exact (ha rfl).elim
  | exitLong => exact hc.1
  | noTrade => exact hc.1

/-- The open is outside the bracket of an entry. -/
def Outside (decision : StrategyDecision) (bar : Candle) : Prop :=
  ∃ setup, decision.setup = some setup ∧
    ¬ (ofText setup.invalidationPrice < ofText bar.open' ∧
      ofText bar.open' < ofText setup.targetPrice)

theorem not_outside {bar : Candle} (ha : decision.action ≠ .enterLong) :
    ¬ Outside decision bar := by
  rintro ⟨setup, hsetup, -⟩
  rw [setup_of_not_enter ha] at hsetup
  cases hsetup

/-- With the positions in agreement, only the bracket of an entry is left to refuse. -/
theorem outside_iff {bar : Candle} (hs : Agrees s) (h : Translates s decision intent.toFields) :
    ((intent.action = .exitLong ∧ ¬ s._fillEngine.hasPosition) ∨
      ∃ h : intent.action = .enterLong, s._fillEngine.hasPosition ∨
        ¬ PaperFillEngine.Inside (intent.position h) bar) ↔ Outside decision bar := by
  obtain ⟨f, hf⟩ : ∃ f, intent.toFields = f := ⟨_, rfl⟩
  rw [hf] at h
  cases h with
  | exit held ha =>
    have hopen := hs.mp held
    have hout := @not_outside decision bar (by rw [ha]; decide)
    simp [hf, hopen, hout]
  | hold held ha =>
    have hout := @not_outside decision bar (by rw [ha]; decide)
    simp [hf, hout]
  | quiet flat ha =>
    have hout := @not_outside decision bar (by rw [ha]; decide)
    simp [hf, hout]
  | enter flat ha hsetup =>
    rename_i setup
    have hflat : ¬ s._fillEngine.hasPosition := fun h => flat (hs.mpr h)
    have haction : intent.action = .enterLong := by rw [hf]
    have hinside := @inside_iff intent setup bar haction (by rw [hf]) (by rw [hf])
    constructor
    · rintro (⟨hexit, -⟩ | ⟨henter, hbad⟩)
      · rw [haction] at hexit
        cases hexit
      · refine ⟨setup, hsetup, fun h => ?_⟩
        exact hbad.elim hflat fun hbad => hbad (hinside.mpr h)
    · rintro ⟨other, hother, hbad⟩
      rw [hsetup] at hother
      cases hother
      exact .inr ⟨haction, .inr fun h => hbad (hinside.mp h)⟩

/-- The candle belongs to the market of the adapter. -/
def Belongs (s : ResearchSignalAdapter) (bar : Candle) : Prop :=
  bar.symbol = s.symbol ∧ bar.interval = primaryInterval ∧ bar.isClosed = true

/-- What the market refuses of a decision: the candle is none of it, an entry opens outside its
bracket, or the fills exceed the volume. -/
def Unfillable (s : ResearchSignalAdapter) (c : Call) : Prop :=
  ¬ Belongs s c.fillCandle ∨ Outside c.decision c.fillCandle ∨
    ∃ intent, s._intent c.decision = .ok intent ∧
      s._fillEngine.Exceeds ⟨c.event, intent, c.fillCandle⟩

/-- The engine refuses what the market refuses. -/
theorem fits_iff (hready : Ready s c) (ht : Translated s c.decision intent)
    (hevent : c.event.snapshot.symbol = s._fillEngine.symbol)
    (hsame : s._fillEngine.symbol = s.symbol)
    (hopen : c.fillCandle.openTimeMs = c.event.eligibleFillOpenTimeMs) :
    (PaperFillEngine.Call.Fits ⟨c.event, intent, c.fillCandle⟩ s._fillEngine ∧
      ¬ s._fillEngine.Refuses ⟨c.event, intent, c.fillCandle⟩) ↔ ¬ Unfillable s c := by
  have htime := ht.translates.expected.2.trans hready.time
  have hfits : PaperFillEngine.Call.Fits ⟨c.event, intent, c.fillCandle⟩ s._fillEngine ↔
      Belongs s c.fillCandle := by
    unfold PaperFillEngine.Call.Fits Belongs
    rw [← hsame]
    exact ⟨fun h => ⟨h.2.2.1, h.2.2.2.1, h.2.2.2.2.1⟩,
      fun h => ⟨htime, hevent, h.1, h.2.1, h.2.2, hopen⟩⟩
  have hexceeds : (∃ i, s._intent c.decision = .ok i ∧
      s._fillEngine.Exceeds ⟨c.event, i, c.fillCandle⟩) ↔
        s._fillEngine.Exceeds ⟨c.event, intent, c.fillCandle⟩ := by
    rw [ht.of_intent]
    simp
  have hbracket := @outside_iff s c.decision intent c.fillCandle hready.agrees ht.translates
  unfold Refuses Unfillable
  rw [hfits, hexceeds, ← hbracket, or_assoc]
  constructor
  · rintro ⟨hbelongs, hgood⟩ hbad
    exact hbad.elim (fun h => h hbelongs) hgood
  · intro hgood
    exact ⟨not_not.mp fun h => hgood (.inl h), fun h => hgood (.inr h)⟩

/-- The adapter after some events of a dataset. The candidate is asked about the adapter's own
position; the setup it is shown may be any. -/
inductive Run (candidate : Candidate) (d : AcceptedBacktestDataset) :
    List DecisionEvent → ResearchSignalAdapter → Prop where
  | start {s : ResearchSignalAdapter} (h : init candidate.identity d.spec.symbol = .ok s) :
      Run candidate d [] s
  | event {es : List DecisionEvent} {s t : ResearchSignalAdapter} {e : DecisionEvent}
      {setup : Option LongSetup} {decision : StrategyDecision} {bar : Candle} {step : AdapterStep}
      (run : Run candidate d es s)
      (evaluated : candidate.evaluate (.of candidate.identity e.snapshot) (decide s.hasPosition)
        setup = .ok decision)
      (traded : bar ∈ d.primary ∧ bar.openTimeMs = e.eligibleFillOpenTimeMs)
      (processed : (process ⟨e, decision, bar⟩).call s = (.ok step, t)) :
      Run candidate d (es ++ [e]) t

/-- What holds after some events of the clock. An open position was entered on a history that
was long enough. -/
structure Locked (candidate : Candidate) (d : AcceptedBacktestDataset) (warmup : ℕ)
    (es : List DecisionEvent) (s : ResearchSignalAdapter) : Prop where
  agrees : Agrees s
  identity : s.identity = candidate.identity
  symbol : s.symbol = d.spec.symbol
  engine : s._fillEngine.symbol = d.spec.symbol
  sequence : s._lastSequence.elim 0 (· + 1) = (es.length : ℤ)
  time : ∀ t ∈ s._lastDecisionTimeMs, ∃ e ∈ es, e.decisionTimeMs = t
  warm : s.hasPosition → ∃ e ∈ es, Enough warmup (.of candidate.identity e.snapshot)

section Next
variable {candidate : Candidate} {d : AcceptedBacktestDataset} {warmup : ℕ}
  {all es : List DecisionEvent} {e : DecisionEvent} {bar : Candle}

theorem enough_of_later {f : DecisionEvent} (hf : BacktestClock.Taken d f)
    (he : BacktestClock.Taken d e) (hlater : f.decisionTimeMs < e.decisionTimeMs)
    (h : Enough warmup (.of candidate.identity f.snapshot)) :
    Enough warmup (.of candidate.identity e.snapshot) where
  regime := h.regime.trans (hf.length_history_le he hlater.le .h4)
  primary := h.primary.trans (hf.length_history_le he hlater.le .h1)
  confirmation := h.confirmation.trans (hf.length_history_le he hlater.le .m15)

/-- The decision of the next event is one the adapter can take. -/
theorem Locked.next (h : Locked candidate d warmup es s) (bar : Candle)
    (hall : BacktestClock.events d = .ok all) (hnext : es ++ [e] <+: all)
    (hreturned : Returned warmup (.of candidate.identity e.snapshot) (decide s.hasPosition)
      decision) :
    (s.hasPosition → decision.reason ≠ .insufficientHistory) ∧
      Ready s ⟨e, decision, bar⟩ ∧ e.snapshot.symbol = s._fillEngine.symbol ∧
      ∃ intent, Translated s decision intent := by
  obtain ⟨hsequence, hearlier, htaken, he⟩ := BacktestClock.next_event hall hnext
  obtain ⟨hsymbol, htime, -⟩ := AcceptedBacktestDataset.snapshotAt_eq_ok he.snapshot
  have henough : s.hasPosition → Enough warmup (.of candidate.identity e.snapshot) := by
    intro hpos
    obtain ⟨f, hf, hwarm⟩ := h.warm hpos
    exact enough_of_later (htaken f hf) he (hearlier f hf) hwarm
  have hheld : s.hasPosition → decision.action = .exitLong ∨
      (decision.action = .noTrade ∧ decision.reason = .holdPosition) := by
    intro hpos
    rcases hreturned.held (decide_eq_true hpos) with ⟨-, hshort⟩ | hdecision
    · exact (hshort (henough hpos)).elim
    · exact hdecision
  have hflat : ¬ s.hasPosition → decision.action = .enterLong ∨
      (decision.action = .noTrade ∧ decision.reason ≠ .holdPosition) :=
    fun hpos => (hreturned.flat (decide_eq_false hpos)).imp And.left id
  have hsame := hreturned.same
  refine ⟨?_, ?_, hsymbol.trans h.engine.symm, translated_of_matching hheld hflat⟩
  · intro hpos hreason
    rcases hheld hpos with ha | ⟨-, hr⟩
    · rw [(decision.of_exit ha).2] at hreason
      cases hreason
    · rw [hr] at hreason
      cases hreason
  · have hdecisionTime : decision.decisionTimeMs = e.decisionTimeMs := by
      unfold StrategyDecision.decisionTimeMs
      rw [hsame]
      exact htime
    have hdecisionSymbol : decision.symbol = d.spec.symbol := by
      unfold StrategyDecision.symbol
      rw [hsame]
      exact hsymbol
    refine ⟨h.agrees, ?_, h.engine.trans hdecisionSymbol.symm, hdecisionTime⟩
    unfold _validate
    rw [raiseIf_bind_eq_ok, raiseIf_bind_eq_ok, raiseIf_eq_ok]
    refine ⟨?_, not_not.mpr ⟨decision.context.reconstructs, decision.valid⟩, ?_⟩
    · rw [h.identity, h.symbol, hsame, hdecisionSymbol, hsymbol, hdecisionTime]
      simp [StrategyContext.of]
    · rw [h.sequence, hsequence, not_or, not_not]
      refine ⟨rfl, ?_⟩
      cases hlast : s._lastDecisionTimeMs with
      | none => simp
      | some last =>
        obtain ⟨f, hf, rfl⟩ := h.time last hlast
        simpa using hearlier f hf

theorem locked_start (hc : candidate ∈ candidates)
    (h : init candidate.identity d.spec.symbol = .ok s) : Locked candidate d warmup [] s := by
  unfold init at h
  rw [raiseIf_neg (not_not.mpr (Candidate.supported hc)), ok_bind] at h
  cases h
  exact ⟨⟨fun h => (h rfl).elim, fun h => (h rfl).elim⟩, rfl, rfl, rfl, rfl, nofun,
    fun h => (h rfl).elim⟩

variable {step : AdapterStep}

theorem entered_of_finished {engine : PaperFillEngine} (hs : Agrees s)
    (ht : Translated s decision intent)
    (hp : (PaperFillEngine.process ⟨e, intent, bar⟩).call s._fillEngine = (.ok step.fills, engine))
    (hflat : ¬ s.hasPosition) (hopen : engine.hasPosition) : decision.action = .enterLong := by
  by_contra hno
  have haction : intent.action ≠ .enterLong := by
    rw [ht.translates.expected.1]
    cases ha : decision.action with
    | enterLong => exact (hno ha).elim
    | noTrade => decide
    | exitLong => decide
  have hbefore : s._fillEngine.openQuantity = none :=
    openQuantity_eq_none.mpr fun h => hflat (hs.mpr h)
  rcases call_process_no_enter hp haction with hsame | hnone
  · exact openQuantity_eq_none.mp (hsame.trans hbefore) hopen
  · exact openQuantity_eq_none.mp hnone hopen

/-- An accepted event keeps the two in step. -/
theorem Locked.event {t : ResearchSignalAdapter} (h : Locked candidate d warmup es s)
    (hall : BacktestClock.events d = .ok all) (hnext : es ++ [e] <+: all)
    (hreturned : Returned warmup (.of candidate.identity e.snapshot) (decide s.hasPosition)
      decision)
    (hprocessed : (process ⟨e, decision, bar⟩).call s = (.ok step, t)) :
    Locked candidate d warmup (es ++ [e]) t := by
  obtain ⟨-, hready, -, intent, ht⟩ := h.next bar hall hnext hreturned
  obtain ⟨hsequence, -⟩ := BacktestClock.next_event hall hnext
  rcases call_process_cases hready ht with ⟨-, step', engine, hcall, hp, hagrees⟩ | ⟨-, hcall⟩
  · rw [hprocessed] at hcall
    cases hcall
    refine ⟨hagrees, ?_, ?_, ?_, ?_, ?_, ?_⟩
    · refine Eq.trans ?_ h.identity
      unfold finished moved _remember
      split_ifs <;> rfl
    · refine Eq.trans ?_ h.symbol
      unfold finished moved _remember
      split_ifs <;> rfl
    · refine Eq.trans ?_ h.engine
      change (moved s engine step)._fillEngine.symbol = _
      rw [engine_moved]
      exact (call_process_eq_ok hp).1
    · change e.sequence + 1 = _
      rw [hsequence, length_append, length_singleton]
      push_cast
      rfl
    · rintro last ⟨⟩
      exact ⟨e, mem_append_right _ mem_cons_self, rfl⟩
    · intro hpos
      by_cases hheld : s.hasPosition
      · obtain ⟨f, hf, hwarm⟩ := h.warm hheld
        exact ⟨f, mem_append_left _ hf, hwarm⟩
      · have hopen : (moved s engine step)._fillEngine.hasPosition := hagrees.mp hpos
        rw [engine_moved] at hopen
        have henter := entered_of_finished h.agrees ht hp hheld hopen
        rcases hreturned.flat (decide_eq_false hheld) with ⟨-, hwarm⟩ | ⟨hno, -⟩
        · exact ⟨e, mem_append_right _ mem_cons_self, hwarm⟩
        · rw [henter] at hno
          cases hno
  · rw [hprocessed] at hcall
    cases hcall

theorem Run.locked (hc : candidate ∈ candidates)
    (hreturned : ∀ context inPosition setup decision,
      candidate.evaluate context inPosition setup = .ok decision →
        context.identity = candidate.identity ∧ Returned warmup context inPosition decision)
    (hall : BacktestClock.events d = .ok all) (h : Run candidate d es s) (hinitial : es <+: all) :
    Locked candidate d warmup es s := by
  induction h with
  | start h => exact locked_start hc h
  | event run evaluated traded processed ih =>
    have hbefore := ih ((prefix_append _ _).trans hinitial)
    exact hbefore.event hall hinitial (hreturned _ _ _ _ evaluated).2 processed

end Next

/-- Over every dataset and run of its clock, no decision for an open position lacks history, the
two positions agree, and the adapter takes every decision that the market can fill; what the
market cannot fill it refuses without a change. -/
theorem decisions_accepted {candidate : Candidate} (hc : candidate ∈ candidates)
    {d : AcceptedBacktestDataset} {all es : List DecisionEvent}
    (hall : BacktestClock.events d = .ok all) {s : ResearchSignalAdapter}
    (hrun : Run candidate d es s) {e : DecisionEvent} (hnext : es ++ [e] <+: all)
    {setup : Option LongSetup} {decision : StrategyDecision}
    (hdecision : candidate.evaluate (.of candidate.identity e.snapshot) (decide s.hasPosition)
      setup = .ok decision)
    {bar : Candle} (hbar : bar ∈ d.primary ∧ bar.openTimeMs = e.eligibleFillOpenTimeMs) :
    (s.hasPosition → decision.reason ≠ .insufficientHistory) ∧
      (s.hasPosition ↔ s._fillEngine.hasPosition) ∧
      ((¬ Unfillable s ⟨e, decision, bar⟩ ∧ ∃ step t,
          (process ⟨e, decision, bar⟩).call s = (.ok step, t) ∧
            (t.hasPosition ↔ t._fillEngine.hasPosition)) ∨
        (Unfillable s ⟨e, decision, bar⟩ ∧
          (process ⟨e, decision, bar⟩).call s = (.error rejected, s))) := by
  obtain ⟨warmup, hreturned⟩ := Candidate.returned hc
  have hlocked := hrun.locked hc hreturned hall ((List.prefix_append _ _).trans hnext)
  obtain ⟨henough, hready, hevent, intent, ht⟩ :=
    hlocked.next bar hall hnext (hreturned _ _ _ _ hdecision).2
  have hsame : s._fillEngine.symbol = s.symbol := hlocked.engine.trans hlocked.symbol.symm
  have hfits := fits_iff hready ht hevent hsame hbar.2
  refine ⟨henough, hlocked.agrees, ?_⟩
  rcases call_process_cases hready ht with ⟨hgood, step, engine, hcall, -, hagrees⟩ | ⟨hbad, hcall⟩
  · exact .inl ⟨hfits.mp hgood, step, _, hcall, hagrees⟩
  · exact .inr ⟨not_not.mp fun h => hbad (hfits.mpr h), hcall⟩

/-- The first decision that has seen enough regime candles. -/
def sampleTime : ℤ := 734400000

def sampleFlat (interval : Interval) (openTimeMs : ℤ) : Candle.Fields :=
  Candle.flat .btcusdt interval openTimeMs "100"

/-- A candle that rises from its low to its high. -/
def sampleRise (interval : Interval) (openTimeMs : ℤ) : Candle.Fields :=
  { sampleFlat interval openTimeMs with high := "101", close := "101" }

def sampleFill : Candle := ⟨Candle.flat .btcusdt .h1 sampleTime "101", by decide⟩
def sampleGap : Candle := ⟨Candle.flat .btcusdt .h1 sampleTime "200", by decide⟩

def samplePrimary : List Candle :=
  Candle.series ⟨sampleFlat .h1 (sampleTime - 72000000), by decide⟩ 19 ++
    [⟨sampleRise .h1 (sampleTime - 3600000), by decide⟩]

def sampleContext : List Candle :=
  [⟨sampleFlat .m15 (sampleTime - 1800000), by decide⟩,
    ⟨sampleRise .m15 (sampleTime - 900000), by decide⟩]

def sampleRegime : List Candle :=
  Candle.series ⟨sampleFlat .h4 0, by decide⟩ 50 ++
    [⟨Candle.flat .btcusdt .h4 (sampleTime - 14400000) "200", by decide⟩]

/-- One hour of a market, with the candle its decision is filled in. -/
def sampleMarket (bar : Candle) : AcceptedBacktestDataset where
  spec := ⟨{ symbol := .btcusdt, startTimeMs := sampleTime, endTimeMs := sampleTime + 3600000 },
    by decide⟩
  manifestGeneratedAtMs := sampleTime
  primary := samplePrimary ++ [bar]
  context := sampleContext
  regime := sampleRegime

def sampleSnapshot : MarketSnapshot where
  symbol := .btcusdt
  decisionTimeMs := sampleTime
  primary := samplePrimary
  context := sampleContext
  regime := sampleRegime
  valid := by decide +kernel

def sampleEvent : DecisionEvent where
  sequence := 0
  decisionTimeMs := sampleTime
  eligibleFillOpenTimeMs := sampleTime
  snapshot := sampleSnapshot
  valid := by decide +kernel

def sampleSetup : LongSetup where
  referencePrice := "101"
  invalidationPrice := "99.9821428571428571428571428571428571428571"
  targetPrice := "103.0357142857142857142857142857142857142858"
  valid := by decide +kernel

def sampleEntry : StrategyDecision where
  context := .of trendPullbackIdentity sampleSnapshot
  action := .enterLong
  reason := .trendPullbackEntry
  setup := some sampleSetup
  valid := by decide +kernel

def sampleAdapter : ResearchSignalAdapter :=
  ⟨trendPullbackIdentity, .btcusdt, .init .btcusdt, none, none, none⟩

theorem sampleAdapter_started :
    init trendPullbackIdentity .btcusdt = .ok sampleAdapter := by decide

theorem events_sampleMarket :
    BacktestClock.events (sampleMarket sampleFill) = .ok [sampleEvent] ∧
      BacktestClock.events (sampleMarket sampleGap) = .ok [sampleEvent] := by decide +kernel

theorem evaluate_sampleEvent : evaluateTrendPullback (.of trendPullbackIdentity sampleEvent.snapshot)
    (decide sampleAdapter.hasPosition) none = .ok sampleEntry := by decide +kernel

theorem decisions_accepted_sample : ∃ step t,
    (process ⟨sampleEvent, sampleEntry, sampleFill⟩).call sampleAdapter = (.ok step, t) ∧
      (t.hasPosition ↔ t._fillEngine.hasPosition) := by
  have h := @decisions_accepted ⟨trendPullbackIdentity, evaluateTrendPullback⟩ List.mem_cons_self
    (sampleMarket sampleFill) [sampleEvent] [] events_sampleMarket.1 sampleAdapter
    (.start sampleAdapter_started) sampleEvent (List.prefix_refl _) none sampleEntry
    evaluate_sampleEvent sampleFill ⟨by decide +kernel, rfl⟩
  rcases h.2.2 with ⟨-, haccepted⟩ | ⟨-, hrefused⟩
  · exact haccepted
  · have hcall : ((process ⟨sampleEvent, sampleEntry, sampleFill⟩).call sampleAdapter).1 ≠
        .error rejected := by decide +kernel
    rw [hrefused] at hcall
    exact (hcall rfl).elim

/-- A market that opens above the target of an entry is refused. -/
theorem not_always_accepted : ¬ ∀ candidate ∈ candidates, ∀ d all es,
    BacktestClock.events d = .ok all → ∀ s, Run candidate d es s → ∀ e, es ++ [e] <+: all →
    ∀ setup decision, candidate.evaluate (.of candidate.identity e.snapshot)
      (decide s.hasPosition) setup = .ok decision →
    ∀ bar ∈ d.primary, bar.openTimeMs = e.eligibleFillOpenTimeMs →
      ∃ step t, (process ⟨e, decision, bar⟩).call s = (.ok step, t) := by
  intro h
  obtain ⟨step, t, haccepted⟩ := h ⟨trendPullbackIdentity, evaluateTrendPullback⟩
    List.mem_cons_self (sampleMarket sampleGap) [sampleEvent] [] events_sampleMarket.2
    sampleAdapter (.start sampleAdapter_started) sampleEvent (List.prefix_refl _) none sampleEntry
    evaluate_sampleEvent sampleGap (by decide +kernel) rfl
  have hcall : ((process ⟨sampleEvent, sampleEntry, sampleGap⟩).call sampleAdapter).1 =
      .error rejected := by decide +kernel
  rw [haccepted] at hcall
  cases hcall

end ResearchSignalAdapter

end TradingLab
