import TradingLab.Validation.ForwardMarket

/-!
# The risk tracker over a forward run

The tracker is shown the portfolio before each decision, in the order of the
clock. Between two observations at most one trade is closed, and without one the
realized result stays as it is. So what the tracker keeps is what its history
says: the latch is set once a limit was broken, and never before.
-/

namespace TradingLab

open Decimal Accounting Method RiskHistory List

namespace PaperSession

variable {spec : BacktestSpec} {p p' : PaperSession} {c : PaperFillEngine.Call}
  {fills : List CostedFill}

/-- The ledger between two observations. -/
def ClosesAtMostOne (s s' : PortfolioLedger) : Prop :=
  (s'.closedTrades = s.closedTrades ∧ s'.realizedPnlQuote = s.realizedPnlQuote) ∨
    s'.closedTrades = s.closedTrades + 1

theorem applyAll_singleton {s s' : PortfolioLedger} {f : CostedFill}
    (h : (PortfolioLedger._applyAll [f]).call s = (.ok (), s')) : s' = s.posted f :=
  (PortfolioLedger.call_apply_eq_ok.mp
    (call_onError_eq_ok.mp (PortfolioLedger.call_apply_single.mpr h))).2

theorem applyAll_pair {s s' : PortfolioLedger} {f g : CostedFill}
    (h : (PortfolioLedger._applyAll [f, g]).call s = (.ok (), s')) :
    s' = (s.posted f).posted g := by
  have hsize : 1 ≤ [f, g].length ∧ [f, g].length ≤ maxLedgerBatch := by simp [maxLedgerBatch]
  exact (PortfolioLedger.call_applyMany_pair.mp
    (PortfolioLedger.call_applyMany_eq_ok.mpr ⟨hsize, h⟩)).2.2

/-- The fills of one event close one trade at most. -/
theorem closes_of_accept (hs : p.Sound spec) (h : p.accept c = .ok (fills, p')) :
    ClosesAtMostOne p.ledger p'.ledger := by
  obtain ⟨hemits, -, -, hall⟩ := accept_eq_ok hs h
  generalize hrefs : fills.map (fun f => f.reference) = refs at hemits
  generalize p.engine.openQuantity = before at hemits
  generalize p'.engine.openQuantity = after at hemits
  cases hemits with
  | idle =>
    rw [map_eq_nil_iff] at hrefs
    subst hrefs
    have hsame : p.ledger = p'.ledger := congrArg Prod.snd hall
    rw [← hsame]
    exact .inl ⟨rfl, rfl⟩
  | enter ha =>
    obtain ⟨f, rfl, rfl⟩ := map_eq_singleton_iff.mp hrefs
    rw [applyAll_singleton hall, PortfolioLedger.posted_enter ha]
    exact .inl ⟨rfl, rfl⟩
  | exit ha =>
    obtain ⟨f, rfl, rfl⟩ := map_eq_singleton_iff.mp hrefs
    have hne : f.reference.action ≠ .enterLong := by simp [ha]
    rw [applyAll_singleton hall, PortfolioLedger.posted_exit hne]
    exact .inr rfl
  | roundTrip ha _ hx =>
    obtain ⟨f, rest, rfl, rfl, hrest⟩ := map_eq_cons_iff.mp hrefs
    obtain ⟨g, rfl, rfl⟩ := map_eq_singleton_iff.mp hrest
    have hne : g.reference.action ≠ .enterLong := by simp [hx]
    rw [applyAll_pair hall, PortfolioLedger.posted_exit hne, PortfolioLedger.posted_enter ha]
    exact .inr rfl

end PaperSession

namespace PaperRunner

variable {dataset : AcceptedBacktestDataset} {events es : List DecisionEvent}
  {os : List Observation} {e : DecisionEvent} {o : Observation} {s t : Replay}
  {tracker : _RiskTracker} {state : ValidationRiskState}

/-- A replay after some events, with what the tracker was shown at them. -/
inductive Replays (dataset : AcceptedBacktestDataset) :
    List DecisionEvent → List Observation → Replay → Prop
  | start : Replays dataset [] [] (.init dataset.spec)
  | event {es : List DecisionEvent} {os : List Observation} {s t : Replay} {e : DecisionEvent}
      {o : Observation} (run : Replays dataset es os s) (observed : s.observation e = .ok o)
      (stepped : s.step dataset e = .ok t) : Replays dataset (es ++ [e]) (os ++ [o]) t

/-- The observations that a run over the events has fed to its tracker, whether or not the last
event is finished. -/
inductive Shown (dataset : AcceptedBacktestDataset) (events : List DecisionEvent) :
    List Observation → _RiskTracker → Prop
  | start : Shown dataset events [] (Replay.init dataset.spec).riskTracker
  | next {es : List DecisionEvent} {os : List Observation} {s : Replay} {e : DecisionEvent}
      {o : Observation} {state : ValidationRiskState} {tracker : _RiskTracker}
      (run : Replays dataset es os s) (clock : es ++ [e] <+: events)
      (observed : s.observation e = .ok o)
      (fed : s.riskTracker.observe o = .ok (state, tracker)) :
      Shown dataset events (os ++ [o]) tracker

theorem observation_eq_ok (h : s.observation e = .ok o) :
    o.eventTimeMs = e.decisionTimeMs ∧ o.closedTrades = s.session.ledger.closedTrades ∧
      o.realized = s.session.ledger.realizedPnlQuote := by
  unfold Replay.observation at h
  obtain ⟨pre, hpre, h⟩ := bind_eq_ok.mp h
  cases h
  have hsnapshot := mapError_eq_ok.mp hpre
  unfold PortfolioLedger.snapshot at hsnapshot
  obtain ⟨price, -, hbuild⟩ := bind_eq_ok.mp hsnapshot
  obtain ⟨_, rfl⟩ := construct_eq_ok.mp hbuild
  exact ⟨rfl, rfl, rfl⟩

theorem step_eq_ok (h : s.step dataset e = .ok t) :
    (∃ o state, s.observation e = .ok o ∧ s.riskTracker.observe o = .ok (state, t.riskTracker)) ∧
      ∃ c fills, c.event = e ∧ s.session.accept c = .ok (fills, t.session) := by
  unfold Replay.step at h
  obtain ⟨candle, -, h⟩ := bind_eq_ok.mp h
  obtain ⟨observation, hobservation, h⟩ := bind_eq_ok.mp h
  obtain ⟨observed, hobserved, h⟩ := bind_eq_ok.mp h
  obtain ⟨decision, -, h⟩ := bind_eq_ok.mp h
  obtain ⟨chosen, -, h⟩ := bind_eq_ok.mp h
  obtain ⟨filled, hfilled, h⟩ := bind_eq_ok.mp h
  obtain ⟨activeSetup, -, h⟩ := bind_eq_ok.mp h
  cases h
  exact ⟨⟨observation, observed.1, hobservation, mapError_eq_ok.mp hobserved⟩,
    ⟨_, filled.1, rfl, mapError_eq_ok.mp hfilled⟩⟩

/-- An event is finished once all its parts are. -/
theorem step_of {candle : Candle} {decision : StrategyDecision} {veto : Option EntrySafetyVeto}
    {intent : PaperIntent} {counts : Counts} {fills : List CostedFill} {session : PaperSession}
    {active : Option LongSetup} (hcandle : _fillCandle dataset e = .ok candle)
    (hobservation : s.observation e = .ok o)
    (hobserve : s.riskTracker.observe o = .ok (state, tracker))
    (hdecision : evaluateTrendPullback (.of trendPullbackIdentity e.snapshot)
      (decide s.session.engine.hasPosition) s.activeSetup = .ok decision)
    (hchoose : _choose e decision state s.counts = .ok (veto, intent, counts))
    (haccept : s.session.accept ⟨e, intent, candle⟩ = .ok (fills, session))
    (hactive : _activeSetup (decide session.engine.hasPosition) intent decision s.activeSetup =
      .ok active) :
    ∃ t, s.step dataset e = .ok t ∧ t.session = session ∧ t.riskTracker = tracker ∧
      t.activeSetup = active := by
  unfold Replay.step
  rw [hcandle, ok_bind, hobservation, ok_bind, hobserve]
  simp only [Except.mapError, ok_bind]
  rw [hdecision]
  simp only [ok_bind]
  rw [hchoose]
  simp only [ok_bind]
  rw [haccept]
  simp only [ok_bind]
  rw [hactive]
  exact ⟨_, rfl, rfl, rfl, rfl⟩

/-- Between two observations at most one trade is closed, and otherwise nothing is realized. -/
def Closing (p : Observation × Observation) : Prop :=
  (p.2.closedTrades = p.1.closedTrades ∧ p.2.realized = p.1.realized) ∨
    p.2.closedTrades = p.1.closedTrades + 1

/-- What the observations of a run have in common with its events and its ledger. -/
structure Followed (spec : BacktestSpec) (es : List DecisionEvent) (os : List Observation)
    (s : Replay) : Prop where
  times : os.map (fun o => o.eventTimeMs) = es.map fun e => e.decisionTimeMs
  fed : _RiskTracker.Fed (Replay.init spec).riskTracker os s.riskTracker
  running : ∃ fills, PaperSession.Running spec fills s.session
  first : ∀ o ∈ os.head?, o.closedTrades = 0 ∧ o.realized = 0
  closings : ∀ p ∈ steps os, Closing p
  before : os = [] → s = Replay.init spec
  ledger : ∀ last ∈ os.getLast?, (s.session.ledger.closedTrades = last.closedTrades ∧
      s.session.ledger.realizedPnlQuote = last.realized) ∨
    s.session.ledger.closedTrades = last.closedTrades + 1

theorem followed_start (spec : BacktestSpec) : Followed spec [] [] (.init spec) := by
  constructor
  · rfl
  · exact .start
  · exact ⟨[], PaperSession.running_init spec⟩
  · intro o ho
    cases ho
  · intro p hp
    cases hp
  · intro _
    rfl
  · intro last hlast
    cases hlast

variable {spec : BacktestSpec}

/-- The observation of the next event goes on where the last one left off. -/
theorem Followed.observation (h : Followed spec es os s) (ho : s.observation e = .ok o) :
    (∀ x ∈ (os ++ [o]).head?, x.closedTrades = 0 ∧ x.realized = 0) ∧
      ∀ p ∈ steps (os ++ [o]), Closing p := by
  obtain ⟨-, hclosed, hrealized⟩ := observation_eq_ok ho
  rcases eq_nil_or_concat os with rfl | ⟨pre, last, rfl⟩
  · rw [h.before rfl] at hclosed hrealized
    constructor
    · rintro x ⟨⟩
      exact ⟨hclosed, hrealized⟩
    · intro p hp
      cases hp
  · rw [concat_eq_append] at h ⊢
    constructor
    · intro x hx
      apply h.first x
      rw [append_assoc, head?_append] at hx
      rw [head?_append]
      cases hpre : pre.head? with
      | none => simpa [hpre] using hx
      | some y => simpa [hpre] using hx
    · have hsteps : steps (pre ++ [last] ++ [o]) = steps (pre ++ [last]) ++ [(last, o)] := by
        rw [append_assoc]
        exact steps_concat pre last o
      rw [hsteps]
      intro p hp
      rcases mem_append.mp hp with hp | hp
      · exact h.closings p hp
      · rw [mem_singleton.mp hp]
        unfold Closing
        rw [hclosed, hrealized]
        exact h.ledger last (by simp)

/-- An event that is finished extends the run. -/
theorem Followed.step (h : Followed spec es os s) (ho : s.observation e = .ok o)
    (hs : s.step dataset e = .ok t) : Followed spec (es ++ [e]) (os ++ [o]) t := by
  obtain ⟨htime, hclosed, hrealized⟩ := observation_eq_ok ho
  obtain ⟨⟨o', state, ho', hobserved⟩, c, fills, -, haccept⟩ := step_eq_ok hs
  rw [ho] at ho'
  cases ho'
  obtain ⟨before, hrunning⟩ := h.running
  obtain ⟨hfirst, hclosings⟩ := h.observation ho
  constructor
  · rw [map_append, map_append, h.times, map_singleton, map_singleton, htime]
  · exact .observe h.fed hobserved
  · exact ⟨before ++ fills, hrunning.accept haccept⟩
  · exact hfirst
  · exact hclosings
  · intro hnil
    simp at hnil
  · intro last hlast
    obtain rfl : o = last := by simpa using hlast
    have hcloses := PaperSession.closes_of_accept hrunning.sound haccept
    unfold PaperSession.ClosesAtMostOne at hcloses
    rw [hclosed, hrealized]
    rcases hcloses with hsame | hone
    · left
      rw [hsame.1, hsame.2]
      exact ⟨rfl, rfl⟩
    · right
      rw [hone]
      push_cast
      rfl

theorem Replays.followed (h : Replays dataset es os s) : Followed dataset.spec es os s := by
  induction h with
  | start => exact followed_start dataset.spec
  | event _ observed stepped ih => exact ih.step observed stepped

theorem ordered_of_events (hevents : BacktestClock.events dataset = .ok events)
    (hinitial : es <+: events) (htimes : os.map (fun o => o.eventTimeMs) =
      es.map fun e => e.decisionTimeMs) : Ordered os := by
  obtain ⟨hclock, -⟩ := BacktestClock.events_eq_ok hevents
  have hpos : (0 : ℤ) < primaryInterval.milliseconds := Interval.milliseconds_pos _
  have hsorted : (events.map fun e => e.decisionTimeMs).Pairwise (· < ·) := by
    rw [hclock]
    exact pairwise_timeRange hpos
  have hes : (es.map fun e => e.decisionTimeMs).Pairwise (· < ·) :=
    hsorted.sublist (hinitial.sublist.map _)
  rw [← htimes, pairwise_map] at hes
  exact hes.imp le_of_lt

/-- The observations of a run, with the tracker that saw them. -/
structure Observed (spec : BacktestSpec) (os : List Observation) (tracker : _RiskTracker) :
    Prop where
  fed : _RiskTracker.Fed (Replay.init spec).riskTracker os tracker
  ordered : Ordered os
  first : ∀ o ∈ os.head?, o.closedTrades = 0 ∧ o.realized = 0
  closings : ∀ p ∈ steps os, Closing p

theorem Shown.observed (hevents : BacktestClock.events dataset = .ok events)
    (h : Shown dataset events os tracker) : Observed dataset.spec os tracker := by
  cases h with
  | start =>
    refine ⟨.start, .nil, ?_, ?_⟩
    · intro o ho
      cases ho
    · intro p hp
      cases hp
  | next run clock observed fed =>
    have hfollowed := run.followed
    obtain ⟨htime, -⟩ := observation_eq_ok observed
    obtain ⟨hfirst, hclosings⟩ := hfollowed.observation observed
    refine ⟨.observe hfollowed.fed fed, ?_, hfirst, hclosings⟩
    apply ordered_of_events hevents clock
    rw [map_append, map_append, hfollowed.times, map_singleton, map_singleton,
      htime]

theorem Observed.tracks (h : Observed spec os tracker) :
    _RiskTracker.Tracks CandidateFreeze.initialEquityQuote os tracker :=
  h.fed.tracks ⟨h.ordered, fun o ho => (h.first o ho).1⟩

theorem events_of_events (h : _events dataset = .ok events) :
    BacktestClock.events dataset = .ok events := by
  unfold _events at h
  obtain ⟨es, hes, h⟩ := bind_eq_ok.mp h
  rw [raiseIf_bind_eq_ok] at h
  obtain ⟨-, h⟩ := h
  rw [raiseIf_bind_eq_ok] at h
  obtain ⟨-, h⟩ := h
  cases h
  exact mapError_eq_ok.mp hes

theorem Observed.sum_totals (h : Observed spec os tracker) {f b : ℕ}
    (hfb : f + b < defaultPrecision) (hfits : ∀ o ∈ os, Fits f b o.realized.toRat)
    {last : Observation} (hlast : last ∈ os.getLast?) :
    ((sessions Observation.day os).map fun day => (total day os).toRat).sum =
      last.realized.toRat := by
  cases os with
  | nil => cases hlast
  | cons first os =>
    have hzero : first.realized.toRat = 0 := by
      rw [(h.first first rfl).2]
      exact toRat_zero
    have hend : (first :: os).getLastD first = last := by
      rw [getLastD_eq_getLast?, Option.mem_def.mp hlast]
      rfl
    rw [(exact_of_fits hfb h.ordered hfits).sum, hzero, sub_zero, hend]

/-! ### A trade that is opened and stopped within an hour

The last hour before the first decision closes above a flat average, and the candle after it
falls through the stop. The loss has more than 28 digits, so its session keeps a rounded one.
-/

def sampleEnd : ℤ := firstDecisionTimeMs + 14400000

/-- The candle before the first decision. -/
def sampleRise (i : Interval) : Candle.Fields :=
  { Candle.flat .btcusdt i (firstDecisionTimeMs - i.milliseconds) "100" with
    high := "101"
    close := "101" }

/-- The candle of the trade. -/
def sampleDrop : Candle where
  toFields := { Candle.flat .btcusdt .h1 firstDecisionTimeMs "101" with
    low := "99"
    close := "100" }
  valid := by decide

def sampleFlat (i : Interval) (openTimeMs : ℤ) (price : String) : Candle.Fields :=
  Candle.flat .btcusdt i openTimeMs price

def sampleCandles : Interval → List Candle
  | .m15 => ForwardMarket.steadyCandles .btcusdt .m15 815 ++
      ⟨sampleRise .m15, by decide⟩ ::
        Candle.series ⟨sampleFlat .m15 firstDecisionTimeMs "100", by decide⟩ 16
  | .h1 => ForwardMarket.steadyCandles .btcusdt .h1 203 ++
      ⟨sampleRise .h1, by decide⟩ :: sampleDrop ::
        Candle.series ⟨sampleFlat .h1 (firstDecisionTimeMs + 3600000) "100", by decide⟩ 3
  | .h4 => ForwardMarket.steadyCandles .btcusdt .h4 50 ++
      [⟨sampleFlat .h4 (firstDecisionTimeMs - 14400000) "200", by decide⟩,
        ⟨sampleFlat .h4 firstDecisionTimeMs "100", by decide⟩]

theorem covers_sampleCandles (i : Interval) :
    Loader.Covers .btcusdt i forwardWindowStartMs sampleEnd (sampleCandles i) := by
  cases i with
  | m15 =>
    apply (ForwardMarket.covers_steadyCandles .btcusdt .m15 815).append
    · decide
    · decide
    · decide
    · apply Loader.Covers.cons (c := ⟨sampleRise .m15, by decide⟩) ⟨rfl, rfl, rfl⟩ (by decide)
      exact .series ⟨sampleFlat .m15 firstDecisionTimeMs "100", by decide⟩ rfl 16
  | h1 =>
    apply (ForwardMarket.covers_steadyCandles .btcusdt .h1 203).append
    · decide
    · decide
    · decide
    · apply Loader.Covers.cons (c := ⟨sampleRise .h1, by decide⟩) ⟨rfl, rfl, rfl⟩ (by decide)
      apply Loader.Covers.cons (c := sampleDrop) ⟨rfl, rfl, rfl⟩ (by decide)
      exact .series ⟨sampleFlat .h1 (firstDecisionTimeMs + 3600000) "100", by decide⟩ rfl 3
  | h4 =>
    apply (ForwardMarket.covers_steadyCandles .btcusdt .h4 50).append
    · decide
    · decide
    · decide
    · apply Loader.Covers.cons
        (c := ⟨sampleFlat .h4 (firstDecisionTimeMs - 14400000) "200", by decide⟩)
        ⟨rfl, rfl, rfl⟩ (by decide)
      apply Loader.Covers.cons (c := ⟨sampleFlat .h4 firstDecisionTimeMs "100", by decide⟩)
        ⟨rfl, rfl, rfl⟩ (by decide)
      exact .nil (by decide)

/-- The candles of a market that never moves, up to the end of the sample. -/
theorem covers_sampleSteady (i : Interval) :
    Loader.Covers .ethusdt i forwardWindowStartMs sampleEnd
      (ForwardMarket.steadyCandles .ethusdt i
        ((sampleEnd - forwardWindowStartMs) / i.milliseconds).toNat) := by
  have hcovers := ForwardMarket.covers_steadyCandles .ethusdt i
    ((sampleEnd - forwardWindowStartMs) / i.milliseconds).toNat
  have hstop : forwardWindowStartMs + (((sampleEnd - forwardWindowStartMs) /
      i.milliseconds).toNat : ℕ) * i.milliseconds = sampleEnd := by
    cases i <;> decide
  rw [hstop] at hcovers
  exact hcovers

def sampleMarket : ForwardMarket where
  candles
    | .btcusdt, i => sampleCandles i
    | .ethusdt, i => ForwardMarket.steadyCandles .ethusdt i
        ((sampleEnd - forwardWindowStartMs) / i.milliseconds).toNat
  endTimeMs := fun _ _ => sampleEnd
  serverTimeMs := sampleEnd
  healthSha256 := fun _ _ => Sha256.hexDigest []
  covers := by
    intro s i
    cases s with
    | btcusdt => exact covers_sampleCandles i
    | ethusdt => exact covers_sampleSteady i
  begun := by
    intro _ _
    decide
  aligned := by
    intro _ i
    cases i <;> decide
  seen := fun _ _ => le_rfl
  reported := fun _ _ => Sha256.isHexDigest_hexDigest _

theorem sampleMarket_even (i : Interval) : sampleMarket.endTimeMs .btcusdt i = sampleEnd := rfl

def sampleSpec : BacktestSpec where
  symbol := .btcusdt
  startTimeMs := firstDecisionTimeMs
  endTimeMs := sampleEnd
  valid := by decide

theorem spec_sample : _spec .btcusdt firstDecisionTimeMs sampleEnd = .ok sampleSpec := rfl

def sampleDataset : AcceptedBacktestDataset := sampleMarket.dataset .btcusdt sampleSpec

theorem postInit_sampleSnapshot {t : ℤ} (hstart : firstDecisionTimeMs ≤ t) (hstop : t < sampleEnd)
    (ht : t % 3600000 = 0) : MarketSnapshot.Fields.postInit {
      symbol := .btcusdt
      decisionTimeMs := t
      primary := AcceptedBacktestDataset.visible t sampleDataset.primary
      context := AcceptedBacktestDataset.visible t sampleDataset.context
      regime := AcceptedBacktestDataset.visible t sampleDataset.regime } = .ok () := by
  have hwarm : Warm sampleDataset := ForwardMarket.warm_even sampleMarket_even spec_sample
  obtain ⟨s, hs, -⟩ := BacktestClock.snapshotAt_of_warm hwarm hstart hstop ht
  unfold AcceptedBacktestDataset.snapshotAt at hs
  rw [raiseIf_bind_eq_ok] at hs
  obtain ⟨h, -⟩ := construct_eq_ok.mp (mapError_eq_ok.mp hs.2)
  exact h

def sampleSnapshot (k : Fin 4) : MarketSnapshot where
  symbol := .btcusdt
  decisionTimeMs := firstDecisionTimeMs + k * 3600000
  primary := AcceptedBacktestDataset.visible (firstDecisionTimeMs + k * 3600000)
    sampleDataset.primary
  context := AcceptedBacktestDataset.visible (firstDecisionTimeMs + k * 3600000)
    sampleDataset.context
  regime := AcceptedBacktestDataset.visible (firstDecisionTimeMs + k * 3600000)
    sampleDataset.regime
  valid := by
    have hgrid : firstDecisionTimeMs % 3600000 = 0 := by decide
    apply postInit_sampleSnapshot
    · omega
    · unfold sampleEnd
      omega
    · omega

def sampleEvent (k : Fin 4) : DecisionEvent where
  sequence := k
  decisionTimeMs := firstDecisionTimeMs + k * 3600000
  eligibleFillOpenTimeMs := firstDecisionTimeMs + k * 3600000
  snapshot := sampleSnapshot k
  valid := by
    have hfirst : 0 < firstDecisionTimeMs ∧ firstDecisionTimeMs % 3600000 = 0 := by decide
    have hhour : primaryInterval.milliseconds = 3600000 := rfl
    unfold DecisionEvent.Fields.postInit
    rw [raiseIf_eq_ok, hhour]
    simp only [sampleSnapshot]
    omega

theorem taken_sampleEvent (k : Fin 4) : BacktestClock.Taken sampleDataset (sampleEvent k) where
  fill := rfl
  snapshot := by
    have hrange : sampleDataset.spec.startTimeMs ≤ (sampleEvent k).decisionTimeMs ∧
        (sampleEvent k).decisionTimeMs < sampleDataset.spec.endTimeMs := by
      change firstDecisionTimeMs ≤ firstDecisionTimeMs + k * 3600000 ∧
        firstDecisionTimeMs + k * 3600000 < firstDecisionTimeMs + 14400000
      omega
    unfold AcceptedBacktestDataset.snapshotAt
    rw [raiseIf_neg (not_not.mpr hrange), ok_bind, mapError_eq_ok]
    exact construct_of_ok (sampleSnapshot k).valid

/-- The clock of the sample starts with these two events. -/
theorem events_sample : ∃ es, _events sampleDataset = .ok es ∧
    [sampleEvent 0, sampleEvent 1] <+: es := by
  obtain ⟨es, hes, -, -⟩ := ForwardMarket.events_even sampleMarket_even spec_sample
  have hclock : BacktestClock.events sampleDataset = .ok es := events_of_events hes
  obtain ⟨htimes, hsequences, htaken⟩ := BacktestClock.events_eq_ok hclock
  have hhours : timeRange sampleDataset.spec.startTimeMs sampleDataset.spec.endTimeMs
      primaryInterval.milliseconds = [firstDecisionTimeMs, firstDecisionTimeMs + 3600000,
        firstDecisionTimeMs + 7200000, firstDecisionTimeMs + 10800000] := by decide
  rw [hhours] at htimes
  obtain ⟨e, es, rfl, hfirst, htimes⟩ := map_eq_cons_iff.mp htimes
  obtain ⟨f, es, rfl, hsecond, htimes⟩ := map_eq_cons_iff.mp htimes
  rw [length_cons, length_cons, range_succ_eq_map, range_succ_eq_map]
    at hsequences
  simp only [map_cons, List.cons.injEq] at hsequences
  have he : e = sampleEvent 0 :=
    (htaken e (by simp)).eq (taken_sampleEvent 0) hsequences.1 hfirst
  have hf : f = sampleEvent 1 :=
    (htaken f (by simp)).eq (taken_sampleEvent 1) hsequences.2.1 hsecond
  rw [he, hf] at hes
  exact ⟨_, hes, es, rfl⟩

def sampleContext : StrategyContext := .of trendPullbackIdentity (sampleEvent 0).snapshot

def sampleFeature (name : String) (period warmup : ℕ) (value : Decimal) : FeatureResult.Fields where
  name := name
  period := period
  decisionTimeMs := firstDecisionTimeMs
  observed := 204
  warmupRequired := warmup
  state := .ready
  value := some value

def sampleAverage : FeatureResult := ⟨sampleFeature "SMA" 20 20 ⟨false, 10005, -2⟩, by decide⟩

def sampleAtr : Decimal := quotient decimalPrecision ⟨false, 1, 0⟩ ⟨false, 14, 0⟩

def sampleVolatility : FeatureResult := ⟨sampleFeature "ATR" 14 15 sampleAtr, by decide⟩

def sampleLow : FeatureResult := ⟨sampleFeature "ROLLING_LOW" 3 3 ⟨false, 100, 0⟩, by decide⟩

def sampleLevels : LongSetup.Fields where
  referencePrice := "101"
  invalidationPrice := "99.9821428571428571428571428571428571428571"
  targetPrice := "103.0357142857142857142857142857142857142858"

theorem valid_sampleLevels : sampleLevels.postInit = .ok () := by decide +kernel

def sampleSetup : LongSetup := ⟨sampleLevels, valid_sampleLevels⟩

set_option maxRecDepth 100000

section Evaluated
open Evaluation

theorem regime_sample : ∃ r, _regime Trend.label sampleContext = .ok r ∧
    r.regime = .trendUp ∧ r.reason = .upAligned := by
  have h : (_regime Trend.label sampleContext).toOption.map (fun r => (r.regime, r.reason)) =
      some (.trendUp, .upAligned) := by decide +kernel
  cases hr : _regime Trend.label sampleContext with
  | error e =>
    rw [hr] at h
    cases h
  | ok r =>
    rw [hr] at h
    have hpair := Option.some.inj h
    exact ⟨r, rfl, congrArg Prod.fst hpair, congrArg Prod.snd hpair⟩

theorem average_sample : Features.sma sampleContext.snapshot.primary Trend.primarySmaPeriod
    sampleContext.decisionTimeMs = .ok sampleAverage := by
  decide

theorem volatility_sample : Features.atr sampleContext.snapshot.primary atrPeriod
    sampleContext.decisionTimeMs = .ok sampleVolatility := by
  decide +kernel

theorem low_sample : Features.rollingLow sampleContext.snapshot.primary Trend.pullbackLookback
    sampleContext.decisionTimeMs = .ok sampleLow := by
  decide +kernel

theorem invalidation_sample : _text decimalPrecision (sub decimalPrecision ⟨false, 100, 0⟩
    (mul decimalPrecision sampleAtr stopAtrFraction)) = .ok sampleSetup.invalidationPrice := by
  decide +kernel

/-- The levels of the entry. -/
theorem enter_sample : ∃ d, _enter sampleContext .trendPullbackEntry (ofText "101")
    ⟨false, 100, 0⟩ sampleAtr = .ok d ∧ d.action = .enterLong ∧ d.setup = some sampleSetup := by
  have hreference : _text defaultPrecision (ofText "101") = .ok sampleSetup.referencePrice := by
    decide
  have hstop : _text defaultPrecision (ofText sampleSetup.invalidationPrice) =
      .ok sampleSetup.invalidationPrice := by decide
  have htarget : _text defaultPrecision (add decimalPrecision (ofText "101")
      (mul decimalPrecision (sub decimalPrecision (ofText "101")
        (ofText sampleSetup.invalidationPrice)) rewardRisk)) = .ok sampleSetup.targetPrice := by
    decide
  have hrisk : ¬ (ofText sampleSetup.invalidationPrice ≤ 0 ∨
      sub decimalPrecision (ofText "101") (ofText sampleSetup.invalidationPrice) ≤ 0) := by
    decide
  have hbuild : LongSetup.build ⟨sampleSetup.referencePrice, sampleSetup.invalidationPrice,
      sampleSetup.targetPrice⟩ = .ok sampleSetup := construct_of_ok sampleSetup.valid
  unfold _enter
  dsimp only
  rw [invalidation_sample, ok_bind, if_neg hrisk, hreference, ok_bind, hstop, ok_bind, htarget,
    ok_bind, hbuild]
  exact ⟨⟨⟨sampleContext, .enterLong, .trendPullbackEntry, some sampleSetup⟩, rfl⟩, rfl, rfl, rfl⟩

theorem decision_sample : ∃ d, evaluateTrendPullback sampleContext false none = .ok d ∧
    d.action = .enterLong ∧ d.setup = some sampleSetup := by
  obtain ⟨r, hr, hup, haligned⟩ := regime_sample
  have hready : sampleAverage.available ∧ r.reason ≠ .insufficientHistory ∧
      2 ≤ sampleContext.snapshot.context.length := by
    rw [haligned]
    refine ⟨rfl, by decide, ?_⟩
    decide
  have hclose : sampleContext.snapshot.latestPrimary.close = "101" := by decide
  have haverage : sampleAverage.number hready.1 = ⟨false, 10005, -2⟩ := rfl
  have hlow : ¬ (⟨false, 10005, -2⟩ < ofText sampleContext.snapshot.latestPrimary.low ∨
      ofText "101" ≤ ⟨false, 10005, -2⟩) := by decide
  have hconfirmed : ¬ ¬ _confirmed sampleContext.snapshot.context := by decide
  unfold evaluateTrendPullback
  have hvalidated : _validated trendPullbackIdentity Trend.label sampleContext false none =
      .ok none := rfl
  rw [hvalidated, ok_bind, hr, ok_bind, average_sample]
  change ∃ d, (if h : sampleAverage.available ∧ _ then _ else _) = _ ∧ _
  rw [dif_pos hready]
  rw [haverage]
  unfold Trend._search
  rw [hclose, hup, if_neg (by decide), if_neg (by decide), if_neg hlow, if_neg hconfirmed]
  have hfeature : ∀ message (f : FeatureResult), _featureOf message (.ok f) = .ok f :=
    fun _ _ => rfl
  have hlevels : sampleVolatility.available ∧ sampleLow.available := ⟨rfl, rfl⟩
  have hvolatility : sampleVolatility.number hlevels.1 = sampleAtr := Option.get_some _ _
  have hrecent : sampleLow.number hlevels.2 = ⟨false, 100, 0⟩ := rfl
  unfold Trend._levels
  dsimp only
  rw [volatility_sample, hfeature, ok_bind, low_sample, hfeature, ok_bind, dif_pos hlevels,
    hvolatility, hrecent]
  exact enter_sample

end Evaluated

def sampleIntent : PaperIntent where
  action := .enterLong
  decisionTimeMs := firstDecisionTimeMs
  quantity := runnerQuantity
  stopPrice := some sampleSetup.invalidationPrice
  targetPrice := some sampleSetup.targetPrice
  valid := by decide +kernel

def sampleCall : PaperFillEngine.Call := ⟨sampleEvent 0, sampleIntent, sampleDrop⟩

/-- A portfolio without a position. -/
def sampleAmounts (cash realized fee slippage : Decimal) : Amounts Decimal where
  cash := cash
  assetQuantity := 0
  costBasisQuote := 0
  liquidationValueQuote := 0
  realizedPnlQuote := realized
  unrealizedPnlQuote := 0
  equityQuote := cash
  totalFeeQuote := fee
  totalSlippageQuote := slippage

def sampleBefore : PortfolioSnapshot where
  toAmounts := sampleAmounts (ofText "10000") 0 0 0
  symbol := .btcusdt
  closedTrades := 0
  valid := by decide +kernel

def sampleAfter : PortfolioSnapshot where
  toAmounts := sampleAmounts
    ⟨false, 999999868066913392857142857142857142857142857138577855, -50⟩
    ⟨true, 131933086607142857142857142857142857142861422145, -50⟩
    ⟨false, 20098265178571428571428571428571428571428567145, -50⟩
    ⟨false, 10049107142857142857142857142857142857142855, -47⟩
  symbol := .btcusdt
  closedTrades := 1
  valid := by decide +kernel

def sampleFirst : Observation := ⟨firstDecisionTimeMs, sampleBefore, "101"⟩

def sampleSecond : Observation := ⟨firstDecisionTimeMs + 3600000, sampleAfter, "100"⟩

theorem observation_sample : ((Replay.init sampleSpec).observation (sampleEvent 0)).toOption =
    some sampleFirst := by
  decide

theorem accept_sample : ∃ fills p, (PaperSession.init sampleSpec).accept sampleCall =
    .ok (fills, p) ∧ p.ledger.snapshotFields ⟨false, 100, 0⟩ = sampleAfter.toFields ∧
      ¬ p.engine.hasPosition := by
  have h : ((PaperSession.init sampleSpec).accept sampleCall).toOption.map (fun p =>
      (p.2.ledger.snapshotFields ⟨false, 100, 0⟩, decide p.2.engine.hasPosition)) =
      some (sampleAfter.toFields, false) := by decide +kernel
  cases haccept : (PaperSession.init sampleSpec).accept sampleCall with
  | error e =>
    rw [haccept] at h
    cases h
  | ok result =>
    rw [haccept] at h
    have hpair := Option.some.inj h
    exact ⟨result.1, result.2, rfl, congrArg Prod.fst hpair,
      of_decide_eq_false (congrArg Prod.snd hpair)⟩

def sampleState : ValidationRiskState where
  symbol := .btcusdt
  equityQuote := "10000"
  cashQuote := "10000"
  positionQuantity := "0"
  markPrice := "101"
  peakEquityQuote := "10000"
  sessionStartTimeMs := sampleFirst.day
  sessionStartEquityQuote := "10000"
  sessionRealizedPnlQuote := "0"
  consecutiveLosses := 0
  openPositions := 0
  killSwitchActive := false

def sampleTracker : _RiskTracker where
  symbol := .btcusdt
  peak := ⟨false, 10000, 0⟩
  session := some ⟨sampleFirst.day, ⟨false, 10000, 0⟩⟩
  sessionRealizedPnl := 0
  previousRealizedPnl := 0
  previousClosedTrades := 0
  consecutiveLosses := 0
  killSwitchActive := false

theorem observe_sample : ((Replay.init sampleSpec).riskTracker.observe sampleFirst).toOption =
    some (sampleState, sampleTracker) := by
  decide

theorem ok_of_toOption {ε α : Type} {x : Except ε α} {a : α} (h : x.toOption = some a) :
    x = .ok a := by
  cases x with
  | error e => cases h
  | ok b =>
    cases h
    rfl

theorem choose_sample {d : StrategyDecision} (haction : d.action = .enterLong)
    (hsetup : d.setup = some sampleSetup) : ∃ veto counts,
    _choose (sampleEvent 0) d sampleState {} = .ok (some veto, sampleIntent, counts) := by
  have hreasons : EntryVetoReason.all.filter
      (EntryVeto.applies (EntryVeto.amounts sampleSetup sampleState .frozen) sampleState .frozen) =
      [] := by decide +kernel
  have hvalid : ¬ (d.action ≠ .enterLong ∨ runnerQuantity ≠ fixedResearchQuantity) := by
    rw [haction]
    decide
  have hintent : _intent sampleIntent.toFields = .ok sampleIntent := by
    unfold _intent
    rw [construct_of_ok sampleIntent.valid]
    rfl
  unfold _choose assessFixedQuantityEntry
  rw [haction] at hvalid ⊢
  dsimp only
  rw [hsetup]
  dsimp only
  rw [raiseIf_neg hvalid, hreasons]
  exact ⟨_, _, rfl⟩

theorem step_sample : ∃ t, (Replay.init sampleSpec).step sampleDataset (sampleEvent 0) = .ok t ∧
    t.riskTracker = sampleTracker ∧
    t.session.ledger.snapshotFields ⟨false, 100, 0⟩ = sampleAfter.toFields := by
  have hcandle : (_fillCandle sampleDataset (sampleEvent 0)).toOption = some sampleDrop := by
    decide
  obtain ⟨d, hd, haction, hsetup⟩ := decision_sample
  obtain ⟨veto, counts, hchoose⟩ := choose_sample haction hsetup
  obtain ⟨fills, p, haccept, hledger, hflat⟩ := accept_sample
  have hactive : _activeSetup (decide p.engine.hasPosition) sampleIntent d none = .ok none := by
    rw [decide_eq_false hflat]
    rfl
  obtain ⟨t, ht, rfl, htracker, -⟩ := step_of (ok_of_toOption hcandle)
    (ok_of_toOption observation_sample) (ok_of_toOption observe_sample) hd hchoose haccept hactive
  exact ⟨t, ht, htracker, hledger⟩

theorem observation_after {t : Replay}
    (h : t.session.ledger.snapshotFields ⟨false, 100, 0⟩ = sampleAfter.toFields) :
    t.observation (sampleEvent 1) = .ok sampleSecond := by
  have hmark : (sampleEvent 1).snapshot.latestPrimary.close = "100" := by decide
  have hprice : _mark "100" = .ok ⟨false, 100, 0⟩ := by decide
  unfold Replay.observation
  rw [hmark]
  unfold PortfolioLedger.snapshot
  dsimp only
  rw [hprice, ok_bind, h]
  unfold PortfolioSnapshot.build
  rw [construct_of_ok sampleAfter.valid]
  rfl

end PaperRunner

end TradingLab
