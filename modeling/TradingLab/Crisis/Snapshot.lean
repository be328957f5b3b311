import TradingLab.Backtest.Clock
import TradingLab.Backtest.FillAt
import TradingLab.Series.LastRun

/-!
# Market views of histories with gaps

The Crisis Lab replays history in which the exchange has no candles at times. A
view shows of each interval the last run of the candles that are closed: it may
begin after a gap, and it may end before the decision. One that ends where it
should is a view as the other runners have it.
-/

namespace TradingLab

namespace MarketSnapshot.Fields

def history (s : MarketSnapshot.Fields) : Interval → List Candle
  | .h1 => s.primary
  | .m15 => s.context
  | .h4 => s.regime

end MarketSnapshot.Fields

namespace Crisis

def expectedLastOpen (interval : Interval) (decisionTimeMs : ℤ) : ℤ :=
  decisionTimeMs / interval.milliseconds * interval.milliseconds - interval.milliseconds

/-- The checks on each candle of a history; `previous` is the open time before it. -/
def _validateGapAwareCandles (symbol : Symbol) (interval : Interval) (decisionTimeMs : ℤ) :
    Option ℤ → List Candle → Except BacktestContractError Unit
  | _, [] => return
  | previous, candle :: candles => do
      raiseIf (candle.symbol ≠ symbol ∨ candle.interval ≠ interval ∨ ¬ candle.isClosed)
        ⟨interval.value ++ " history identity or state is invalid"⟩
      raiseIf (decisionTimeMs ≤ candle.closeTimeMs)
        ⟨"Future or still-open candle reached the decision"⟩
      raiseIf (candle.openTimeMs % interval.milliseconds ≠ 0)
        ⟨interval.value ++ " history is off the interval grid"⟩
      raiseIf (previous.any fun open' => candle.openTimeMs - open' ≤ 0 ∨
          (candle.openTimeMs - open') % interval.milliseconds ≠ 0)
        ⟨interval.value ++ " history is not ordered on the interval grid"⟩
      _validateGapAwareCandles symbol interval decisionTimeMs (some candle.openTimeMs) candles

def _validateGapAwareHistory (candles : List Candle) (symbol : Symbol) (interval : Interval)
    (decisionTimeMs : ℤ) : Except BacktestContractError Unit := do
  raiseIf (candles.isEmpty) ⟨interval.value ++ " history must be a non-empty tuple"⟩
  _validateGapAwareCandles symbol interval decisionTimeMs none candles
  raiseIf (candles.getLast?.any fun last =>
      expectedLastOpen interval decisionTimeMs < last.openTimeMs)
    ⟨interval.value ++ " history reached beyond the legal decision boundary"⟩

def _postInit (s : MarketSnapshot.Fields) : Except BacktestContractError Unit := do
  raiseIf (s.decisionTimeMs ≤ 0 ∨ s.decisionTimeMs % primaryInterval.milliseconds ≠ 0)
    ⟨"Decision time must be an aligned 1h boundary"⟩
  _validateGapAwareHistory s.primary s.symbol primaryInterval s.decisionTimeMs
  _validateGapAwareHistory s.context s.symbol contextInterval s.decisionTimeMs
  _validateGapAwareHistory s.regime s.symbol regimeInterval s.decisionTimeMs

/-- A candle opens when the one before it closes. -/
def Follows (interval : Interval) (previous candle : Candle) : Prop :=
  candle.openTimeMs = previous.openTimeMs + interval.milliseconds

instance (interval : Interval) : DecidableRel (Follows interval) := fun _ _ => by
  unfold Follows
  infer_instance

/-- A view of which every history is one run, as `snapshotAt` builds it. -/
structure CrisisLabMarketSnapshot extends MarketSnapshot.Fields where
  valid : _postInit toFields = .ok ()
  contiguous : ∀ i, (toFields.history i).IsChain (Follows i)

/-- The history ends with the last candle that can be closed. -/
def _isFresh (interval : Interval) (decisionTimeMs : ℤ) (values : List Candle) : Prop :=
  ∃ last ∈ values.getLast?, last.openTimeMs = expectedLastOpen interval decisionTimeMs

def _snapshotIsFresh (s : MarketSnapshot.Fields) : Prop :=
  _isFresh .h1 s.decisionTimeMs s.primary ∧ _isFresh .m15 s.decisionTimeMs s.context ∧
    _isFresh .h4 s.decisionTimeMs s.regime

instance (interval : Interval) (t : ℤ) (values : List Candle) :
    Decidable (_isFresh interval t values) := by
  unfold _isFresh
  infer_instance

instance (s : MarketSnapshot.Fields) : Decidable (_snapshotIsFresh s) := by
  unfold _snapshotIsFresh
  infer_instance

/-- The last run of the candles that are closed before a decision. -/
def visibleContiguousSuffix (decisionTimeMs : ℤ) (values : List Candle) (interval : Interval) :
    List Candle :=
  Series.lastRun (Follows interval) (AcceptedBacktestDataset.visible decisionTimeMs values)

/-- What a view of a dataset shows. -/
def suffixes (d : AcceptedBacktestDataset) (decisionTimeMs : ℤ) : MarketSnapshot.Fields where
  symbol := d.spec.symbol
  decisionTimeMs := decisionTimeMs
  primary := visibleContiguousSuffix decisionTimeMs d.primary .h1
  context := visibleContiguousSuffix decisionTimeMs d.context .m15
  regime := visibleContiguousSuffix decisionTimeMs d.regime .h4

theorem suffixes_history (d : AcceptedBacktestDataset) (t : ℤ) (i : Interval) :
    (suffixes d t).history i = visibleContiguousSuffix t (d.history i) i := by
  cases i <;> rfl

theorem contiguous_suffixes (d : AcceptedBacktestDataset) (t : ℤ) (i : Interval) :
    ((suffixes d t).history i).IsChain (Follows i) := by
  rw [suffixes_history]
  exact Series.isChain_lastRun _

def snapshotAt (d : AcceptedBacktestDataset) (decisionTimeMs : ℤ) :
    Except BacktestLoadError CrisisLabMarketSnapshot := do
  raiseIf (¬ (d.spec.startTimeMs ≤ decisionTimeMs ∧ decisionTimeMs < d.spec.endTimeMs))
    (.failed "Decision time is outside the backtest range")
  (construct (_postInit (suffixes d decisionTimeMs)) fun h =>
    (⟨_, h, contiguous_suffixes d decisionTimeMs⟩ : CrisisLabMarketSnapshot)).mapError fun _ =>
      .failed "CRL point-in-time snapshot cannot be built safely"

variable {symbol : Symbol} {interval : Interval} {t : ℤ} {candles : List Candle} {previous : Option ℤ}

/-- What the strict check of the candles adds is that they are one run. -/
theorem validateCandles_iff : _validateCandles symbol interval t previous candles = .ok () ↔
    _validateGapAwareCandles symbol interval t previous candles = .ok () ∧
      candles.IsChain (Follows interval) ∧
      ∀ p ∈ previous, ∀ c ∈ candles.head?, c.openTimeMs = p + interval.milliseconds := by
  induction candles generalizing previous with
  | nil => simp [_validateCandles, _validateGapAwareCandles, pure, Except.pure]
  | cons candle candles ih =>
    have hpos := interval.milliseconds_pos
    unfold _validateCandles _validateGapAwareCandles
    simp only [raiseIf_bind_eq_ok, ih]
    have hhead : (∀ p ∈ some candle.openTimeMs, ∀ c ∈ candles.head?,
        c.openTimeMs = p + interval.milliseconds) ↔
        ∀ c ∈ candles.head?, Follows interval candle c := by
      simp [Follows]
    rw [hhead, List.isChain_cons]
    constructor
    · intro h
      obtain ⟨hidentity, hclose, hprevious, hrest, hchain, hnext⟩ := h
      have hgrid : ¬ candle.openTimeMs % interval.milliseconds ≠ 0 := by
        have haligned := candle.facts.2.1
        have hinterval : candle.interval = interval := by
          by_contra hne
          exact hidentity (.inr (.inl hne))
        rw [hinterval] at haligned
        exact not_not.mpr haligned
      have hstep : ∀ p ∈ previous, candle.openTimeMs = p + interval.milliseconds := by
        intro p hp
        rw [Option.mem_def] at hp
        rw [hp] at hprevious
        simpa using hprevious
      refine ⟨⟨hidentity, hclose, hgrid, ?_, hrest⟩, ⟨hnext, hchain⟩, ?_⟩
      · cases previous with
        | none => simp
        | some p =>
          have hdelta : candle.openTimeMs - p = interval.milliseconds := by
            have := hstep p rfl
            omega
          simp only [Option.any_some, hdelta, Int.emod_self]
          simp [hpos]
      · intro p hp c hc
        rw [List.head?_cons] at hc
        cases hc
        exact hstep p hp
    · intro h
      obtain ⟨⟨hidentity, hclose, -, -, hrest⟩, ⟨hnext, hchain⟩, hprevious⟩ := h
      refine ⟨hidentity, hclose, ?_, hrest, hchain, hnext⟩
      cases previous with
      | none => simp
      | some p => simpa using hprevious p rfl candle rfl

theorem validateHistory_iff : _validateHistory candles symbol interval t = .ok () ↔
    _validateGapAwareHistory candles symbol interval t = .ok () ∧
      candles.IsChain (Follows interval) ∧ _isFresh interval t candles := by
  unfold _validateHistory _validateGapAwareHistory _isFresh
  simp only [unit_bind_eq_ok, raiseIf_eq_ok, validateCandles_iff]
  have hnone : ∀ p ∈ (none : Option ℤ), ∀ c ∈ candles.head?,
      c.openTimeMs = p + interval.milliseconds := nofun
  cases hlast : candles.getLast? with
  | none =>
    rw [List.getLast?_eq_none_iff] at hlast
    subst hlast
    simp
  | some last =>
    have hexpected : t / interval.milliseconds * interval.milliseconds - interval.milliseconds =
        expectedLastOpen interval t := rfl
    rw [hexpected]
    constructor
    · intro h
      obtain ⟨hne, ⟨hcandles, hchain, -⟩, hfresh⟩ := h
      have heq : last.openTimeMs = expectedLastOpen interval t := by simpa using hfresh
      exact ⟨⟨hne, hcandles, by simp [heq]⟩, hchain, last, rfl, heq⟩
    · intro h
      obtain ⟨⟨hne, hcandles, -⟩, hchain, c, hc, heq⟩ := h
      cases hc
      exact ⟨hne, ⟨hcandles, hchain, hnone⟩, by simp [heq]⟩

theorem gapAware_postInit_iff (s : MarketSnapshot.Fields) : _postInit s = .ok () ↔
    (0 < s.decisionTimeMs ∧ s.decisionTimeMs % primaryInterval.milliseconds = 0) ∧
      ∀ i, _validateGapAwareHistory (s.history i) s.symbol i s.decisionTimeMs = .ok () := by
  unfold _postInit
  simp only [unit_bind_eq_ok, raiseIf_eq_ok, not_or, not_le, not_not]
  constructor
  · intro h
    refine ⟨h.1, ?_⟩
    intro i
    cases i with
    | m15 => exact h.2.2.1
    | h1 => exact h.2.1
    | h4 => exact h.2.2.2
  · intro h
    exact ⟨h.1, h.2 .h1, h.2 .m15, h.2 .h4⟩

namespace CrisisLabMarketSnapshot

theorem postInit_of_fresh (s : CrisisLabMarketSnapshot) (h : _snapshotIsFresh s.toFields) :
    s.toFields.postInit = .ok () := by
  have hvalid := s.valid
  unfold _postInit at hvalid
  simp only [unit_bind_eq_ok] at hvalid
  obtain ⟨htime, hprimary, hcontext, hregime⟩ := hvalid
  unfold MarketSnapshot.Fields.postInit
  simp only [unit_bind_eq_ok]
  exact ⟨htime, validateHistory_iff.mpr ⟨hprimary, s.contiguous .h1, h.1⟩,
    validateHistory_iff.mpr ⟨hcontext, s.contiguous .m15, h.2.1⟩,
    validateHistory_iff.mpr ⟨hregime, s.contiguous .h4, h.2.2⟩⟩

def strict (s : CrisisLabMarketSnapshot) (h : _snapshotIsFresh s.toFields) : MarketSnapshot :=
  ⟨s.toFields, s.postInit_of_fresh h⟩

theorem primary_ne_nil (s : CrisisLabMarketSnapshot) : s.primary ≠ [] := by
  have hvalid := s.valid
  unfold _postInit _validateGapAwareHistory at hvalid
  simp only [unit_bind_eq_ok] at hvalid
  simpa using hvalid.2.1.1

def latestPrimary (s : CrisisLabMarketSnapshot) : Candle := s.primary.getLast s.primary_ne_nil

end CrisisLabMarketSnapshot

theorem snapshotAt_eq_ok {d : AcceptedBacktestDataset} {s : CrisisLabMarketSnapshot}
    (h : snapshotAt d t = .ok s) : s.toFields = suffixes d t := by
  unfold snapshotAt at h
  rw [raiseIf_bind_eq_ok, mapError_eq_ok, construct_eq_ok] at h
  obtain ⟨-, hvalid, rfl⟩ := h
  rfl

variable {d : AcceptedBacktestDataset}

structure Hour (d : AcceptedBacktestDataset) (t : ℤ) : Prop where
  start : d.spec.startTimeMs ≤ t
  stop : t < d.spec.endTimeMs
  aligned : t % 3600000 = 0

theorem Hour.of_mem (h : t ∈ timeRange d.spec.startTimeMs d.spec.endTimeMs
    primaryInterval.milliseconds) : Hour d t := by
  obtain ⟨⟨hpos, hlt, hstart, hstop⟩, -⟩ := d.spec.facts
  have hhour : primaryInterval.milliseconds = 3600000 := rfl
  rw [mem_timeRange (Interval.milliseconds_pos _), hhour] at h
  obtain ⟨hle, hlt', hdvd⟩ := h
  exact ⟨hle, hlt', by omega⟩

theorem Hour.le_last (h : Hour d t) : t ≤ d.spec.endTimeMs - primaryInterval.milliseconds := by
  obtain ⟨⟨-, -, -, hstop⟩, -⟩ := d.spec.facts
  have hhour : primaryInterval.milliseconds = 3600000 := rfl
  have := h.stop
  have := h.aligned
  omega

end Crisis

end TradingLab
