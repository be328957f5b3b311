import TradingLab.Alike
import TradingLab.Backtest.Valuation
import TradingLab.Crisis.Replay

/-!
# The two runners on history without gaps

Without gaps the views of the Crisis Lab are those of the forward runner and none
of them is stale. Its loop then simulates that of the forward runner, event by
event.
-/

namespace TradingLab

open Decimal List PaperSession

namespace Loader.Covers
variable {symbol : Symbol} {interval : Interval} {start stop t : ℤ} {candles : List Candle}

theorem visible_floor (h : Covers symbol interval start stop candles) :
    AcceptedBacktestDataset.visible t candles =
      AcceptedBacktestDataset.visible (t / interval.milliseconds * interval.milliseconds) candles := by
  have hpos := interval.milliseconds_pos
  apply filter_congr
  intro c hc
  have haligned := c.facts.2.1
  rw [(h.identity c hc).2.1] at haligned
  obtain ⟨k, hk⟩ := Int.dvd_of_emod_eq_zero haligned
  have hclose : c.closeTimeMs = (k + 1) * interval.milliseconds - 1 := by
    rw [h.close hc, hk]
    ring
  have hiff : (k + 1) * interval.milliseconds ≤ t ↔
      (k + 1) * interval.milliseconds ≤ t / interval.milliseconds * interval.milliseconds := by
    rw [mul_le_mul_iff_of_pos_right hpos]
    exact (Int.le_ediv_iff_mul_le hpos).symm
  rw [decide_eq_decide, hclose]
  omega

/-- Of a range without gaps nothing is visible, or a history that passes the strict check. -/
theorem visible_cases (h : Covers symbol interval start stop candles)
    (hstop : t / interval.milliseconds * interval.milliseconds ≤ stop) :
    AcceptedBacktestDataset.visible t candles = [] ∨
      _validateHistory (AcceptedBacktestDataset.visible t candles) symbol interval t = .ok () := by
  have hpos := interval.milliseconds_pos
  by_cases hlt : start < stop
  · by_cases ht : t < start + interval.milliseconds
    · exact .inl (h.visible_eq_nil ht)
    · right
      have haligned := h.aligned hlt
      have hfloor : start + interval.milliseconds ≤
          t / interval.milliseconds * interval.milliseconds := by
        obtain ⟨k, hk⟩ := Int.dvd_of_emod_eq_zero haligned
        have hstart : start + interval.milliseconds = (k + 1) * interval.milliseconds := by
          rw [hk]
          ring
        rw [hstart, mul_le_mul_iff_of_pos_right hpos, Int.le_ediv_iff_mul_le hpos, ← hstart]
        exact not_lt.mp ht
      obtain ⟨last, -, hlast, hopen⟩ := h.getLast?_visible haligned hfloor hstop
      rw [← h.visible_floor] at hlast
      rw [Int.mul_ediv_cancel _ hpos.ne'] at hopen
      have hne : (AcceptedBacktestDataset.visible t candles).isEmpty = false := by
        cases hv : AcceptedBacktestDataset.visible t candles with
        | nil =>
          rw [hv] at hlast
          cases hlast
        | cons c cs => rfl
      unfold _validateHistory
      rw [raiseIf_bind_eq_ok, unit_bind_eq_ok]
      refine ⟨by simp [hne], h.validateCandles nofun, ?_⟩
      rw [raiseIf_eq_ok, hlast]
      simpa using hopen
  · left
    have htimes := h.times
    rw [timeRange_of_le hpos (not_lt.mp hlt), map_eq_nil_iff] at htimes
    rw [htimes]
    rfl

end Loader.Covers

namespace Crisis

/-- Three series without gaps that reach as far as the decisions look: each to the last boundary
before the last decision, and the hourly one to its fill. -/
structure GapFree (d : AcceptedBacktestDataset) : Prop where
  series : ∀ i, ∃ start stop, Loader.Covers d.spec.symbol i start stop (d.history i) ∧
    (d.spec.endTimeMs - primaryInterval.milliseconds) / i.milliseconds * i.milliseconds ≤ stop ∧
    (i = primaryInterval → d.spec.endTimeMs ≤ stop)

variable {d : AcceptedBacktestDataset} {t : ℤ}

namespace GapFree

theorem visible_cases (h : GapFree d) (ht : Hour d t) (i : Interval) :
    AcceptedBacktestDataset.visible t (d.history i) = [] ∨
      _validateHistory (AcceptedBacktestDataset.visible t (d.history i)) d.spec.symbol i t =
        .ok () := by
  obtain ⟨start, stop, hcovers, hstop, -⟩ := h.series i
  apply hcovers.visible_cases
  apply le_trans _ hstop
  apply mul_le_mul_of_nonneg_right _ i.milliseconds_pos.le
  exact Int.ediv_le_ediv i.milliseconds_pos ht.le_last

theorem exists_fill (h : GapFree d) (ht : Hour d t)
    (hne : AcceptedBacktestDataset.visible t d.primary ≠ []) :
    ∃ c ∈ d.primary, c.openTimeMs = t := by
  obtain ⟨start, stop, hcovers, -, hstop⟩ := h.series .h1
  have hend := hstop rfl
  have hlate := ht.stop
  have hstart : start + Interval.milliseconds .h1 ≤ t := by
    by_contra hearly
    exact hne (hcovers.visible_eq_nil (not_le.mp hearly))
  have hpos := Interval.milliseconds_pos .h1
  exact hcovers.exists_open (by omega) (by omega) (by omega) ht.aligned

end GapFree

theorem postInit_iff (s : MarketSnapshot.Fields) : s.postInit = .ok () ↔
    (0 < s.decisionTimeMs ∧ s.decisionTimeMs % primaryInterval.milliseconds = 0) ∧
      ∀ i, _validateHistory (s.history i) s.symbol i s.decisionTimeMs = .ok () := by
  unfold MarketSnapshot.Fields.postInit
  simp only [unit_bind_eq_ok, raiseIf_eq_ok, not_or, not_le, not_not]
  constructor
  · intro h
    refine ⟨h.1, ?_⟩
    intro i
    cases i with
    | m15 => exact h.2.2.1
    | h1 => exact h.2.1
    | h4 => exact h.2.2.2
  · intro h
    exact ⟨h.1, h.2 .h1, h.2 .m15, h.2 .h4⟩

/-- What the other runners show of a dataset. -/
def visibles (d : AcceptedBacktestDataset) (t : ℤ) : MarketSnapshot.Fields where
  symbol := d.spec.symbol
  decisionTimeMs := t
  primary := AcceptedBacktestDataset.visible t d.primary
  context := AcceptedBacktestDataset.visible t d.context
  regime := AcceptedBacktestDataset.visible t d.regime

theorem visibles_history (d : AcceptedBacktestDataset) (t : ℤ) (i : Interval) :
    (visibles d t).history i = AcceptedBacktestDataset.visible t (d.history i) := by
  cases i <;> rfl

theorem suffixes_eq_visibles (h : (visibles d t).postInit = .ok ()) : suffixes d t = visibles d t := by
  have hrun : ∀ i, visibleContiguousSuffix t (d.history i) i =
      AcceptedBacktestDataset.visible t (d.history i) := by
    intro i
    have hvalid := (postInit_iff _).mp h
    have hhistory := hvalid.2 i
    rw [visibles_history] at hhistory
    exact Series.lastRun_of_isChain (validateHistory_iff.mp hhistory).2.1
  unfold suffixes visibles
  rw [show visibleContiguousSuffix t d.primary .h1 = _ from hrun .h1,
    show visibleContiguousSuffix t d.context .m15 = _ from hrun .m15,
    show visibleContiguousSuffix t d.regime .h4 = _ from hrun .h4]
  rfl

theorem fresh_of_postInit {s : MarketSnapshot.Fields} (h : s.postInit = .ok ()) :
    _snapshotIsFresh s := by
  have hvalid := ((postInit_iff s).mp h).2
  exact ⟨(validateHistory_iff.mp (hvalid .h1)).2.2, (validateHistory_iff.mp (hvalid .m15)).2.2,
    (validateHistory_iff.mp (hvalid .h4)).2.2⟩

theorem GapFree.postInit_iff (h : GapFree d) (ht : Hour d t) :
    _postInit (suffixes d t) = .ok () ↔ (visibles d t).postInit = .ok () := by
  constructor
  · intro hvalid
    rw [gapAware_postInit_iff] at hvalid
    rw [Crisis.postInit_iff]
    refine ⟨hvalid.1, ?_⟩
    intro i
    rw [visibles_history]
    rcases h.visible_cases ht i with hnil | hok
    · have hgap := hvalid.2 i
      rw [suffixes_history, visibleContiguousSuffix, hnil] at hgap
      unfold _validateGapAwareHistory at hgap
      rw [raiseIf_bind_eq_ok] at hgap
      exact (hgap.1 rfl).elim
    · exact hok
  · intro hvalid
    rw [suffixes_eq_visibles hvalid, gapAware_postInit_iff]
    rw [Crisis.postInit_iff] at hvalid
    exact ⟨hvalid.1, fun i => (validateHistory_iff.mp (hvalid.2 i)).1⟩

theorem snapshotAt_alike (h : GapFree d) (ht : Hour d t) :
    Alike (fun c s => (∃ fresh, c.strict fresh = s) ∧
      AcceptedBacktestDataset.visible t d.primary ≠ []) (snapshotAt d t) (d.snapshotAt t) := by
  unfold snapshotAt AcceptedBacktestDataset.snapshotAt
  apply Alike.bind (Alike.raiseIf _ _ Iff.rfl)
  intro _ _ _
  apply Alike.mapError
  apply Alike.construct (h.postInit_iff ht)
  intro hgap hvalid
  have hsame := suffixes_eq_visibles hvalid
  have hfresh : _snapshotIsFresh (suffixes d t) := by
    rw [hsame]
    exact fresh_of_postInit hvalid
  refine ⟨⟨hfresh, ?_⟩, ?_⟩
  · unfold CrisisLabMarketSnapshot.strict
    simp only [hsame]
    rfl
  · have hhistory := ((Crisis.postInit_iff _).mp hvalid).2 .h1
    exact MarketSnapshot._validateHistory_ne_nil hhistory

/-- An event of the Crisis Lab is one of the forward runner, and is not skipped. -/
structure Shadows (d : AcceptedBacktestDataset) (c : CrisisEvent) (e : DecisionEvent) : Prop where
  fresh : _snapshotIsFresh c.snapshot.toFields
  same : e.toFields =
    ⟨c.sequence, c.decisionTimeMs, c.eligibleFillOpenTimeMs, c.snapshot.strict fresh⟩
  fill : HasFill d c

theorem events_alike (h : GapFree d) {times : List ℤ} (htimes : ∀ t ∈ times, Hour d t) (n : ℤ) :
    Alike (List.Forall₂ (Shadows d)) (_events d n times) (BacktestClock._events d n times) := by
  induction times generalizing n with
  | nil => exact .ok .nil
  | cons t times ih =>
    have ht := htimes t mem_cons_self
    unfold _events BacktestClock._events
    apply Alike.bind (snapshotAt_alike h ht).mapError
    intro c s hs
    obtain ⟨⟨hfresh, rfl⟩, hne⟩ := hs
    have hbuild : Alike (Shadows d)
        (CrisisEvent.build ⟨n, t, t, c⟩) (DecisionEvent.build ⟨n, t, t, c.strict hfresh⟩) := by
      apply Alike.construct Iff.rfl
      intro _ _
      exact ⟨hfresh, rfl, h.exists_fill ht hne⟩
    apply Alike.bind hbuild
    intro c e hshadows
    apply Alike.bind (ih (fun t ht => htimes t (mem_cons_of_mem _ ht)) (n + 1))
    intro cs es hrest
    exact .ok (.cons hshadows hrest)

theorem gridEvents_alike (h : GapFree d) :
    Alike (fun cs es => List.Forall₂ (Shadows d) cs es ∧ cs.length ≤ 100000) (gridEvents d)
      (BacktestClock.events d) := by
  have hall : Alike (Forall₂ (Shadows d)) (gridEvents d) (BacktestClock.events d) :=
    events_alike h (fun _ => Hour.of_mem) 0
  refine hall.imp ?_
  intro cs es hcs _ hshadows
  have hlength := length_gridEvents hcs
  have hspan := candles_le d.spec
  exact ⟨hshadows, by omega⟩

theorem GapFree.nodup (h : GapFree d) : (d.primary.map fun c => c.openTimeMs).Nodup := by
  obtain ⟨start, stop, hcovers, -⟩ := h.series .h1
  have htimes : d.primary.map (fun c => c.openTimeMs) = _ := hcovers.times
  rw [htimes]
  have hsorted : (timeRange start stop (Interval.milliseconds .h1)).Pairwise (· < ·) :=
    pairwise_timeRange (Interval.milliseconds_pos _)
  exact hsorted.imp ne_of_lt

theorem filter_shadows {cs : List CrisisEvent} {es : List DecisionEvent}
    (h : List.Forall₂ (Shadows d) cs es) : cs.filter (fun c => HasFill d c) = cs := by
  induction h with
  | nil => rfl
  | cons hhead _ ih =>
    rw [filter_cons_of_pos (by simpa using hhead.fill), ih]

/-- The rows say the same, and nothing was stale. -/
structure RowAgrees (x : TraceRow) (y : PaperRunner.TraceRow) : Prop where
  sequence : x.sequence = y.sequence
  decisionTimeMs : x.decisionTimeMs = y.decisionTimeMs
  contextSha256 : x.contextSha256 = y.contextSha256
  strategyAction : x.strategyAction = y.strategyAction.value
  strategyReason : x.strategyReason = y.strategyReason.value
  effectiveIntent : x.effectiveIntent = y.effectiveIntent
  entryVeto : x.entryVeto = y.entryVeto
  riskState : x.riskState = y.riskState
  fillCount : x.fillCount = y.fillCount
  fresh : x.snapshotFresh = true

structure CountsAgree (x : Counts) (y : PaperRunner.Counts) : Prop where
  entry : x.entry = y.entry
  allowed : x.allowed = y.allowed
  blocked : x.blocked = y.blocked
  exit : x.exit = y.exit
  noTrade : x.noTrade = y.noTrade
  staleSnapshot : x.staleSnapshot = 0

structure Agrees (s : Replay) (r : PaperRunner.Replay) : Prop where
  session : s.session = r.session
  riskTracker : s.riskTracker = r.riskTracker
  activeSetup : s.activeSetup = r.activeSetup
  fills : s.fills = r.fills
  trace : List.Forall₂ RowAgrees s.trace r.trace
  counts : CountsAgree s.counts r.counts

/-- The loops agree after `n` events, of two fills each at most. -/
structure InStep (spec : BacktestSpec) (n : ℕ) (s : Replay) (r : PaperRunner.Replay) : Prop where
  agrees : Agrees s r
  running : ∃ fs, PaperSession.Running spec fs r.session ∧ fs.length ≤ 2 * n
  valued : r.session.ledger.Valued

theorem agrees_init (spec : BacktestSpec) : Agrees (.init spec) (.init spec) where
  session := rfl
  riskTracker := rfl
  activeSetup := rfl
  fills := rfl
  trace := .nil
  counts := ⟨rfl, rfl, rfl, rfl, rfl, rfl⟩

theorem inStep_init (spec : BacktestSpec) : InStep spec 0 (.init spec) (.init spec) where
  agrees := agrees_init spec
  running := ⟨[], PaperSession.running_init spec, Nat.le_refl 0⟩
  valued := PortfolioLedger.valued_init spec

variable {c : CrisisEvent} {e : DecisionEvent} {s : Replay} {r : PaperRunner.Replay}

theorem Shadows.snapshot (h : Shadows d c e) : e.snapshot = c.snapshot.strict h.fresh := by
  rw [h.same]

theorem Shadows.moment (h : Shadows d c e) : e.moment = c.moment := by
  rw [DecisionEvent.moment, h.same]
  rfl

theorem fillCandle_alike (h : Shadows d c e) :
    Alike (fun x y => x = y) (_fillCandle d c) (PaperRunner._fillCandle d e) := by
  unfold _fillCandle PaperRunner._fillCandle
  rw [h.same]
  dsimp only
  cases d.primary.find? fun x => x.openTimeMs = c.eligibleFillOpenTimeMs with
  | none => exact .error _ _
  | some candle =>
    apply Alike.bind (Alike.raiseIf _ _ Iff.rfl)
    intro _ _ _
    apply Alike.bind (Alike.raiseIf _ _ Iff.rfl)
    intro _ _ _
    exact .ok rfl

theorem observation_alike (hagrees : Agrees s r) (h : Shadows d c e) :
    Alike (fun x y => x = y) (s.observation c) (r.observation e) := by
  unfold Replay.observation PaperRunner.Replay.observation
  rw [hagrees.session]
  have htime : e.decisionTimeMs = c.decisionTimeMs := by rw [h.same]
  have hmark : e.snapshot.latestPrimary = c.snapshot.latestPrimary := by
    rw [h.snapshot]
    rfl
  rw [htime, hmark]
  dsimp only
  apply Alike.bind (Alike.mapError (Alike.refl _))
  intro x y hxy
  rw [hxy]
  exact .ok rfl

theorem choose_alike {counts : Counts} {counts' : PaperRunner.Counts}
    (hcounts : CountsAgree counts counts') (h : Shadows d c e) (decision : StrategyDecision)
    (state : ValidationRiskState) :
    Alike (fun x y => x.1 = y.1 ∧ x.2.1 = y.2.1 ∧ CountsAgree x.2.2 y.2.2)
      (_choose c.decisionTimeMs decision state counts)
      (PaperRunner._choose e decision state counts') := by
  have htime : e.decisionTimeMs = c.decisionTimeMs := by rw [h.same]
  have hintent : ∀ f, Alike (fun x y => x = y) (_intent f) (PaperRunner._intent f) :=
    fun f => Alike.mapError (Alike.refl _)
  obtain ⟨hentry, hallowed, hblocked, hexit, hnoTrade, hstale⟩ := hcounts
  unfold _choose PaperRunner._choose
  rw [htime]
  cases decision.action with
  | noTrade =>
    apply Alike.bind (hintent _)
    intro x y hxy
    exact .ok ⟨rfl, hxy, hentry, hallowed, hblocked, hexit, by rw [hnoTrade], hstale⟩
  | enterLong =>
    apply Alike.bind (Alike.mapError (Alike.refl _))
    intro veto veto' hveto
    subst hveto
    split
    · apply Alike.bind (hintent _)
      intro x y hxy
      exact .ok ⟨rfl, hxy, by rw [hentry], by rw [hallowed], hblocked, hexit, hnoTrade, hstale⟩
    · apply Alike.bind (hintent _)
      intro x y hxy
      exact .ok ⟨rfl, hxy, by rw [hentry], hallowed, by rw [hblocked], hexit, hnoTrade, hstale⟩
  | exitLong =>
    apply Alike.bind (hintent _)
    intro x y hxy
    exact .ok ⟨rfl, hxy, hentry, hallowed, hblocked, by rw [hexit], hnoTrade, hstale⟩

theorem activeSetup_alike (held : Bool) (intent : PaperIntent) (evaluated : Evaluated)
    (active : Option LongSetup) :
    Alike (fun x y => x = y) (_activeSetup held intent (some evaluated) active)
      (PaperRunner._activeSetup held intent evaluated.decision active) := by
  unfold _activeSetup PaperRunner._activeSetup
  split
  · by_cases henter : intent.action = .enterLong
    · rw [if_pos henter, henter]
      exact .ok rfl
    · rw [if_neg henter]
      split
      · next heq _ => exact (henter heq).elim
      · split
        · exact .error _ _
        · exact .ok rfl
  · exact .ok rfl

theorem evaluate_of_classify_error {context : StrategyContext} {x : RegimeError}
    (h : classifyRegime context = .error x) (held : Bool) (active : Option LongSetup) :
    ∃ y, evaluateTrendPullback context held active = .error y := by
  unfold evaluateTrendPullback
  cases Evaluation._validated trendPullbackIdentity Trend.label context held active with
  | error y => exact ⟨y, rfl⟩
  | ok position =>
    rw [ok_bind]
    unfold Evaluation._regime
    rw [h]
    exact ⟨_, rfl⟩

theorem step_alike {spec : BacktestSpec} {n : ℕ} (hn : n < 100000) (hs : InStep spec n s r)
    (h : Shadows d c e) :
    Alike (InStep spec (n + 1)) (s.step d c) (r.step d e) := by
  obtain ⟨hagrees, ⟨fs, hrunning, hlength⟩, hvalued⟩ := hs
  unfold Replay.step PaperRunner.Replay.step
  apply Alike.bind (fillCandle_alike h)
  intro candle _ hcandle
  subst hcandle
  unfold Replay.decide
  rw [bind_assoc]
  apply Alike.bind (observation_alike hagrees h)
  intro observation _ hobservation
  subst hobservation
  rw [bind_assoc, hagrees.riskTracker]
  apply Alike.bind (Alike.mapError (Alike.refl _))
  intro observed _ hobserved
  subst hobserved
  rw [dif_pos h.fresh, hagrees.session, hagrees.activeSetup, h.snapshot]
  dsimp only
  generalize hcontext : StrategyContext.of trendPullbackIdentity (c.snapshot.strict h.fresh) = context
  cases hregime : classifyRegime context with
  | error x =>
    obtain ⟨y, hy⟩ := evaluate_of_classify_error hregime (decide r.session.engine.hasPosition)
      r.activeSetup
    rw [hy]
    exact .error _ _
  | ok regime =>
    rw [show (Except.ok regime : Except RegimeError RegimeResult).mapError CrisisRunError.regime =
      .ok regime from rfl, ok_bind, bind_assoc]
    apply Alike.bind (Alike.mapError (Alike.refl _))
    intro decision _ hdecision
    subst hdecision
    rw [bind_assoc]
    apply Alike.bind (choose_alike hagrees.counts h decision observed.1)
    intro chosen chosen' hchosen
    obtain ⟨hveto, hintent, hcounts⟩ := hchosen
    have hmoment : (⟨e, chosen'.2.1, candle⟩ : PaperFillEngine.Call).atMoment =
        ⟨c.moment, chosen.2.1, candle⟩ := by
      rw [PaperFillEngine.Call.atMoment, hintent, h.moment]
    rw [show ∀ x : Decided, (pure x >>= fun decided => s.settle c candle decided) =
      s.settle c candle x from fun _ => rfl]
    unfold Replay.settle
    rw [hagrees.session, hagrees.activeSetup]
    dsimp only
    rw [← hmoment, ← accept_eq_acceptAt]
    cases haccept : r.session.accept ⟨e, chosen'.2.1, candle⟩ with
    | error x => exact .error _ _
    | ok filled =>
      obtain ⟨fills, session⟩ := filled
      have hrunning' := hrunning.accept haccept
      have hfew := length_accept hrunning haccept
      have hvalued' := valued_accept hrunning hvalued haccept
      have hlimit : (fs ++ fills).length ≤ PaperSession.rangeFillLimit := by
        rw [length_append]
        unfold rangeFillLimit
        omega
      obtain ⟨hpattern, hpositive⟩ := candle.facts.2.2.2.1 candle.open' mem_cons_self
      obtain ⟨post, hpost⟩ := hrunning'.snapshot hvalued' hlimit hpattern hpositive
      rw [show ∀ x, (Except.ok x : Except RunError _).mapError CrisisRunError.session =
        .ok x from fun _ => rfl, ok_bind,
        show ∀ x, (Except.ok x : Except RunError _).mapError ForwardRunError.session =
        .ok x from fun _ => rfl, ok_bind]
      dsimp only
      rw [hintent]
      apply Alike.bind (activeSetup_alike _ chosen'.2.1 ⟨regime, decision⟩ r.activeSetup)
      intro active _ hactive
      subst hactive
      rw [hpost]
      apply Alike.ok
      refine ⟨⟨rfl, rfl, rfl, ?_, ?_, hcounts⟩, ⟨_, hrunning', ?_⟩, hvalued'⟩
      · rw [hagrees.fills]
      · apply rel_append hagrees.trace
        refine .cons ?_ .nil
        have hsequence : c.sequence = e.sequence := by rw [h.same]
        have htime : c.decisionTimeMs = e.decisionTimeMs := by rw [h.same]
        exact ⟨hsequence, htime, rfl, rfl, rfl, rfl, hveto, rfl, rfl,
          decide_eq_true h.fresh⟩
      · rw [length_append]
        omega

theorem forward_steps (es : List DecisionEvent) (r : PaperRunner.Replay) :
    PaperRunner.Replay.steps d es r = es.foldlM (PaperRunner.Replay.step d) r := by
  induction es generalizing r with
  | nil => rfl
  | cons e es ih =>
    rw [PaperRunner.Replay.steps, foldlM_cons]
    exact congrArg _ (funext ih)

theorem steps_alike {spec : BacktestSpec} {cs : List CrisisEvent} {es : List DecisionEvent}
    (h : List.Forall₂ (Shadows d) cs es) (hlength : cs.length ≤ 100000) (k : ℕ) :
    Alike (InStep spec (cs.take k).length) (Replay.steps d (cs.take k) (.init spec))
      (PaperRunner.Replay.steps d (es.take k) (.init spec)) := by
  rw [forward_steps]
  have hstep : ∀ n < 100000, ∀ s r c e, InStep spec n s r → Shadows d c e →
      Alike (InStep spec (n + 1)) (s.step d c) (r.step d e) :=
    fun n hn s r c e hs he => step_alike hn hs he
  have hfew : 0 + (cs.take k).length ≤ 100000 := by
    rw [length_take]
    omega
  have hrun := Alike.foldlM hstep (forall₂_take k h) hfew (inStep_init spec)
  rwa [Nat.zero_add] at hrun

/-- The outcomes say the same: nothing was skipped and nothing was stale. -/
structure OutcomeAgrees (x : Outcome) (y : PaperRunner.ForwardPaperSymbolResult) : Prop where
  eventCount : x.eventCount = y.eventCount
  missing : x.missingFillDecisionCount = 0
  counts : CountsAgree x.counts ⟨y.entrySignals, y.entriesAllowed, y.entriesBlocked, y.exitSignals,
    y.noTradeSignals⟩
  killSwitchLatched : x.killSwitchLatched = y.killSwitchLatched
  trace : List.Forall₂ RowAgrees x.trace y.trace
  fills : x.fills = y.fills
  finalPortfolio : x.finalPortfolio = y.finalPortfolio

theorem legalEvents_alike (h : GapFree d) :
    Alike (fun cs es => cs.1 = cs.2 ∧ List.Forall₂ (Shadows d) cs.2 es ∧ cs.2.length ≤ 100000)
      (legalEvents d) (PaperRunner._events d) := by
  unfold legalEvents PaperRunner._events
  rw [raiseIf_neg (not_not.mpr h.nodup), ok_bind]
  apply Alike.bind (gridEvents_alike h).mapError
  intro cs es hevents
  obtain ⟨hshadows, hlength⟩ := hevents
  have hempty : cs = [] ↔ es = [] := by
    rw [← length_eq_zero_iff, hshadows.length_eq, length_eq_zero_iff]
  dsimp only
  rw [filter_shadows hshadows]
  apply Alike.bind (Alike.raiseIf _ _ hempty)
  intro _ _ _
  rw [raiseIf_neg (not_not.mpr h.nodup), ok_bind]
  exact .ok ⟨rfl, hshadows, hlength⟩

theorem replay_alike (h : GapFree d) (symbol : Symbol) (inputDatasetSha256 : String) :
    Alike OutcomeAgrees (_replay d) (PaperRunner._replay symbol d inputDatasetSha256) := by
  unfold _replay PaperRunner._replay
  apply Alike.bind (legalEvents_alike h)
  intro events es hevents
  obtain ⟨grid, cs⟩ := events
  obtain ⟨hgrid, hshadows, hlength⟩ := hevents
  dsimp only at hgrid hshadows hlength ⊢
  subst hgrid
  have hsteps := @steps_alike d d.spec grid es hshadows hlength grid.length
  rw [take_length, hshadows.length_eq, take_length] at hsteps
  apply Alike.bind hsteps
  intro s r hs
  have hagrees := hs.agrees
  cases d.primary.getLast? with
  | none => exact .error _ _
  | some last =>
    dsimp only
    rw [hagrees.session]
    apply Alike.bind (Alike.mapError (Alike.refl _))
    intro portfolio _ hportfolio
    subst hportfolio
    apply Alike.ok
    exact ⟨hshadows.length_eq, Nat.sub_self _, hagrees.counts, by rw [hagrees.riskTracker],
      hagrees.trace, hagrees.fills, rfl⟩

/-- **Agreement of the two runners.** On series without gaps the clocks raise together, no event is
skipped or stale, and after every number of events both loops have raised or say the same. -/
theorem crisis_agrees_with_forward (h : GapFree d) :
    Alike (fun cs es => List.Forall₂ (Shadows d) cs es ∧
        ∀ k, Alike Agrees (Replay.steps d (cs.take k) (.init d.spec))
          (PaperRunner.Replay.steps d (es.take k) (.init d.spec)))
      (gridEvents d) (BacktestClock.events d) ∧
    ∀ symbol inputDatasetSha256,
      Alike OutcomeAgrees (_replay d) (PaperRunner._replay symbol d inputDatasetSha256) := by
  refine ⟨?_, replay_alike h⟩
  refine (gridEvents_alike h).imp ?_
  intro cs es _ _ hevents
  obtain ⟨hshadows, hlength⟩ := hevents
  refine ⟨hshadows, ?_⟩
  intro k
  exact (steps_alike hshadows hlength k).imp fun _ _ _ _ hs => hs.agrees

theorem gapFree_sample : GapFree BacktestClock.sampleDataset where
  series := by
    intro i
    refine ⟨14400000, 2606400000, ?_, ?_, fun _ => le_refl _⟩
    · have hhistory : BacktestClock.sampleDataset.history i = BacktestClock.sampleCandles i := by
        unfold AcceptedBacktestDataset.history BacktestClock.sampleDataset
        cases i <;> dsimp only
      rw [hhistory]
      exact BacktestClock.covers_sampleCandles i
    · change (2606400000 - 3600000 : ℤ) / i.milliseconds * i.milliseconds ≤ 2606400000
      cases i <;> decide

theorem crisis_agrees_with_forward_sample :
    Alike (fun cs es => List.Forall₂ (Shadows BacktestClock.sampleDataset) cs es ∧
        ∀ k, Alike Agrees
          (Replay.steps BacktestClock.sampleDataset (cs.take k) (.init BacktestClock.sampleSpec))
          (PaperRunner.Replay.steps BacktestClock.sampleDataset (es.take k)
            (.init BacktestClock.sampleSpec)))
      (gridEvents BacktestClock.sampleDataset) (BacktestClock.events BacktestClock.sampleDataset) :=
  (crisis_agrees_with_forward gapFree_sample).1

end Crisis

end TradingLab
