import TradingLab.Backtest.Loader
import TradingLab.Json.RoundTrip

/-!
# The decision clock

One event for each hour of the range. Its snapshot shows the candles that are
closed by then, and its fill is taken from the candle that opens then.
-/

namespace TradingLab

open List Json

namespace AcceptedBacktestDataset

/-- The candles that are closed before a decision. -/
def visible (decisionTimeMs : ℤ) (candles : List Candle) : List Candle :=
  candles.filter fun c => c.closeTimeMs < decisionTimeMs

def snapshotAt (d : AcceptedBacktestDataset) (decisionTimeMs : ℤ) :
    Except BacktestLoadError MarketSnapshot := do
  raiseIf (¬ (d.spec.startTimeMs ≤ decisionTimeMs ∧ decisionTimeMs < d.spec.endTimeMs))
    (.failed "Decision time is outside the backtest range")
  (MarketSnapshot.build {
    symbol := d.spec.symbol
    decisionTimeMs
    primary := visible decisionTimeMs d.primary
    context := visible decisionTimeMs d.context
    regime := visible decisionTimeMs d.regime }).mapError fun _ =>
      .failed "Point-in-time snapshot cannot be built safely"

end AcceptedBacktestDataset

def DecisionEvent.build (f : DecisionEvent.Fields) : Except BacktestClockError DecisionEvent :=
  construct f.postInit fun h => ⟨f, h⟩

namespace BacktestClock

def eventCount (d : AcceptedBacktestDataset) : ℤ :=
  (d.spec.endTimeMs - d.spec.startTimeMs) / primaryInterval.milliseconds

/-- The events of the remaining decision times, numbered from `sequence`. -/
def _events (d : AcceptedBacktestDataset) :
    ℤ → List ℤ → Except BacktestClockError (List DecisionEvent)
  | _, [] => return []
  | sequence, decisionTime :: times => do
      let snapshot ← (d.snapshotAt decisionTime).mapError fun _ =>
        ⟨"Clock could not build a legal point-in-time event"⟩
      let event ← DecisionEvent.build {
        sequence
        decisionTimeMs := decisionTime
        eligibleFillOpenTimeMs := decisionTime
        snapshot }
      let events ← _events d (sequence + 1) times
      return event :: events

def events (d : AcceptedBacktestDataset) : Except BacktestClockError (List DecisionEvent) :=
  _events d 0 (timeRange d.spec.startTimeMs d.spec.endTimeMs primaryInterval.milliseconds)

end BacktestClock

open AcceptedBacktestDataset

namespace Loader.Covers
variable {symbol : Symbol} {interval : Interval} {start stop t : ℤ} {candles : List Candle}

variable {c : Candle}

theorem tail (h : Covers symbol interval start stop (c :: candles)) :
    c.openTimeMs = start ∧ Covers symbol interval (start + interval.milliseconds) stop candles := by
  have htimes := h.times
  have hpos := interval.milliseconds_pos
  by_cases hlt : start < stop
  · rw [timeRange_of_lt hpos hlt, map_cons, List.cons.injEq] at htimes
    exact ⟨htimes.1, fun d hd => h.identity d (mem_cons_of_mem _ hd), htimes.2⟩
  · rw [timeRange_of_le hpos (not_lt.mp hlt)] at htimes
    cases htimes

theorem ne_nil (h : Covers symbol interval start stop candles) (hlt : start < stop) :
    candles ≠ [] := by
  rintro rfl
  have htimes := h.times
  rw [timeRange_of_lt interval.milliseconds_pos hlt] at htimes
  cases htimes

theorem start_le (h : Covers symbol interval start stop candles) (hc : c ∈ candles) :
    start ≤ c.openTimeMs := by
  have hmem : c.openTimeMs ∈ candles.map fun c => c.openTimeMs := mem_map_of_mem hc
  rw [h.times, mem_timeRange interval.milliseconds_pos] at hmem
  exact hmem.1

theorem close (h : Covers symbol interval start stop candles) (hc : c ∈ candles) :
    c.closeTimeMs = c.openTimeMs + interval.milliseconds - 1 := by
  have hclose := c.facts.2.2.1
  rwa [(h.identity c hc).2.1] at hclose

theorem visible_eq_nil (h : Covers symbol interval start stop candles)
    (ht : t < start + interval.milliseconds) : visible t candles = [] := by
  unfold visible
  rw [filter_eq_nil_iff]
  intro c hc
  have hstart := h.start_le hc
  have hclose := h.close hc
  rw [decide_eq_true_eq]
  omega

/-- The visible candles of a range follow one another. -/
theorem validateCandles (h : Covers symbol interval start stop candles) {previous : Option ℤ}
    (hp : ∀ p ∈ previous, start = p + interval.milliseconds) :
    _validateCandles symbol interval t previous (visible t candles) = .ok () := by
  induction candles generalizing start previous with
  | nil => rfl
  | cons c candles ih =>
    obtain ⟨hopen, hrest⟩ := h.tail
    have hclose := h.close mem_cons_self
    obtain ⟨hsymbol, hinterval, hclosed⟩ := h.identity c mem_cons_self
    by_cases hvisible : c.closeTimeMs < t
    · have hcons : visible t (c :: candles) = c :: visible t candles :=
        filter_cons_of_pos (by simpa using hvisible)
      rw [hcons]
      unfold _validateCandles
      simp only [raiseIf_bind_eq_ok]
      refine ⟨?_, not_le.mpr hvisible, ?_, ?_⟩
      · simp [hsymbol, hinterval, hclosed]
      · cases previous with
        | none => simp
        | some p =>
          have := hp p rfl
          simp only [Option.any_some, decide_eq_true_eq, not_not]
          omega
      · apply ih hrest
        rintro p ⟨⟩
        rw [hopen]
    · have hskip : visible t (c :: candles) = visible t candles :=
        filter_cons_of_neg (by simpa using hvisible)
      have hpos := interval.milliseconds_pos
      rw [hskip, hrest.visible_eq_nil (by omega)]
      rfl

/-- The last visible candle is the one that closes at the last boundary before the decision. -/
theorem getLast?_visible (h : Covers symbol interval start stop candles)
    (haligned : start % interval.milliseconds = 0) (hstart : start + interval.milliseconds ≤ t)
    (hstop : t ≤ stop) : ∃ c ∈ candles, (visible t candles).getLast? = some c ∧
      c.openTimeMs = t / interval.milliseconds * interval.milliseconds - interval.milliseconds := by
  have hpos := interval.milliseconds_pos
  induction candles generalizing start with
  | nil => exact (h.ne_nil (by omega) rfl).elim
  | cons c candles ih =>
    obtain ⟨hopen, hrest⟩ := h.tail
    have hclose := h.close mem_cons_self
    have hcons : visible t (c :: candles) = c :: visible t candles :=
      filter_cons_of_pos (by simp; omega)
    rw [hcons]
    by_cases hnext : start + interval.milliseconds + interval.milliseconds ≤ t
    · have haligned' : (start + interval.milliseconds) % interval.milliseconds = 0 := by
        rw [Int.add_emod_right]
        exact haligned
      obtain ⟨last, hmem, hlast, hlastOpen⟩ := ih hrest haligned' hnext
      refine ⟨last, mem_cons_of_mem _ hmem, ?_, hlastOpen⟩
      rw [getLast?_cons, hlast]
      rfl
    · rw [hrest.visible_eq_nil (not_le.mp hnext)]
      refine ⟨c, mem_cons_self, rfl, ?_⟩
      obtain ⟨k, hk⟩ := Int.dvd_of_emod_eq_zero haligned
      have hquotient : t / interval.milliseconds = k + 1 := by
        have hproduct : (k + 1) * interval.milliseconds = start + interval.milliseconds := by
          rw [hk]
          ring
        apply (Int.ediv_eq_iff_of_pos hpos).mpr
        rw [hproduct]
        exact ⟨hstart, not_le.mp hnext⟩
      rw [hopen, hquotient, hk]
      ring

theorem aligned (h : Covers symbol interval start stop candles) (hlt : start < stop) :
    start % interval.milliseconds = 0 := by
  cases candles with
  | nil => exact (h.ne_nil hlt rfl).elim
  | cons c candles =>
    have haligned := c.facts.2.1
    rwa [(h.identity c mem_cons_self).2.1, h.tail.1] at haligned

theorem validateHistory (h : Covers symbol interval start stop candles) (hlt : start < stop)
    (hstart : start + interval.milliseconds ≤ t) (hstop : t ≤ stop) :
    _validateHistory (visible t candles) symbol interval t = .ok () := by
  obtain ⟨c, -, hlast, hopen⟩ := h.getLast?_visible (h.aligned hlt) hstart hstop
  have hne : (visible t candles).isEmpty = false := by
    cases hv : visible t candles with
    | nil =>
      rw [hv] at hlast
      cases hlast
    | cons c cs => rfl
  unfold _validateHistory
  rw [raiseIf_bind_eq_ok, unit_bind_eq_ok]
  refine ⟨by simp [hne], h.validateCandles nofun, ?_⟩
  rw [raiseIf_eq_ok, hlast]
  simpa using hopen

theorem exists_open (h : Covers symbol interval start stop candles) (hlt : start < stop)
    (hstart : start ≤ t) (hstop : t < stop) (ht : t % interval.milliseconds = 0) :
    ∃ c ∈ candles, c.openTimeMs = t := by
  have hmem : t ∈ candles.map fun c => c.openTimeMs := by
    rw [h.times, mem_timeRange interval.milliseconds_pos]
    exact ⟨hstart, hstop, dvd_sub (Int.dvd_of_emod_eq_zero ht)
      (Int.dvd_of_emod_eq_zero (h.aligned hlt))⟩
  obtain ⟨c, hc, hopen⟩ := mem_map.mp hmem
  exact ⟨c, hc, hopen⟩

end Loader.Covers

theorem Interval.milliseconds_le_regime (i : Interval) :
    i.milliseconds ≤ regimeInterval.milliseconds := by
  cases i <;> decide

def MarketSnapshot.history (s : MarketSnapshot) : Interval → List Candle
  | .h1 => s.primary
  | .m15 => s.context
  | .h4 => s.regime

/-- An event shows everything that is closed at its time, and has a candle to be filled in. -/
structure Shows (d : AcceptedBacktestDataset) (event : DecisionEvent) : Prop where
  visible : ∀ i, event.snapshot.history i =
    (d.history i).filter fun c => c.closeTimeMs < event.decisionTimeMs
  last : ∀ i, ∃ c, (event.snapshot.history i).getLast? = some c ∧ c.openTimeMs =
    event.decisionTimeMs / i.milliseconds * i.milliseconds - i.milliseconds
  fill : event.eligibleFillOpenTimeMs = event.decisionTimeMs ∧
    ∃ c ∈ d.primary, c.openTimeMs = event.decisionTimeMs

namespace BacktestClock
variable {d : AcceptedBacktestDataset} {t : ℤ}

/-- Every hour of a warm range has its snapshot. -/
theorem snapshotAt_of_warm (hwarm : Warm d) (hstart : d.spec.startTimeMs ≤ t)
    (hstop : t < d.spec.endTimeMs) (ht : t % 3600000 = 0) :
    ∃ s : MarketSnapshot, d.snapshotAt t = .ok s ∧ s.decisionTimeMs = t ∧
      ∀ i, s.history i = AcceptedBacktestDataset.visible t (d.history i) := by
  have hhistory : ∀ i, _validateHistory (visible t (d.history i))
      d.spec.symbol i t = .ok () := by
    intro i
    obtain ⟨start, stop, hcovers, hwarmup, hend⟩ := hwarm i
    have hregime := i.milliseconds_le_regime
    have hpos := i.milliseconds_pos
    exact hcovers.validateHistory (by omega) (by omega) (by omega)
  have hpositive : 0 < t := by
    obtain ⟨start, stop, hcovers, hwarmup, hend⟩ := hwarm .h1
    have hregime : (0 : ℤ) < regimeInterval.milliseconds := Interval.milliseconds_pos _
    cases hc : d.history .h1 with
    | nil =>
      rw [hc] at hcovers
      exact (hcovers.ne_nil (by omega) rfl).elim
    | cons c cs =>
      rw [hc] at hcovers
      have hopen := hcovers.tail.1
      have := c.facts.1
      omega
  let fields : MarketSnapshot.Fields := {
    symbol := d.spec.symbol
    decisionTimeMs := t
    primary := visible t d.primary
    context := visible t d.context
    regime := visible t d.regime }
  have hvalid : fields.postInit = .ok () := by
    unfold MarketSnapshot.Fields.postInit
    rw [raiseIf_bind_eq_ok, unit_bind_eq_ok, unit_bind_eq_ok]
    refine ⟨?_, hhistory .h1, hhistory .m15, hhistory .h4⟩
    have hhour : primaryInterval.milliseconds = 3600000 := rfl
    rw [hhour, not_or, not_not]
    exact ⟨not_le.mpr hpositive, ht⟩
  refine ⟨⟨fields, hvalid⟩, ?_, rfl, ?_⟩
  · unfold snapshotAt
    rw [raiseIf_bind_eq_ok, not_not]
    exact ⟨⟨hstart, hstop⟩, mapError_eq_ok.mpr (construct_of_ok hvalid)⟩
  · intro i
    cases i <;> rfl

/-- The events of a list of hours of a warm range. -/
theorem events_of_warm (hwarm : Warm d) {times : List ℤ}
    (htimes : ∀ t ∈ times, d.spec.startTimeMs ≤ t ∧ t < d.spec.endTimeMs ∧ t % 3600000 = 0)
    {n : ℤ} (hn : 0 ≤ n) :
    ∃ es : List DecisionEvent, _events d n times = .ok es ∧
      es.map (fun e => e.decisionTimeMs) = times ∧ ∀ e ∈ es, Shows d e := by
  induction times generalizing n with
  | nil => exact ⟨[], rfl, rfl, nofun⟩
  | cons t times ih =>
    obtain ⟨hstart, hstop, ht⟩ := htimes t mem_cons_self
    obtain ⟨s, hs, htime, hhistory⟩ := snapshotAt_of_warm hwarm hstart hstop ht
    obtain ⟨es, hes, hmap, hshows⟩ :=
      ih (fun u hu => htimes u (mem_cons_of_mem _ hu)) (n := n + 1) (by omega)
    let fields : DecisionEvent.Fields := {
      sequence := n
      decisionTimeMs := t
      eligibleFillOpenTimeMs := t
      snapshot := s }
    have hvalid : fields.postInit = .ok () := by
      unfold DecisionEvent.Fields.postInit
      rw [raiseIf_eq_ok]
      have hhour : primaryInterval.milliseconds = 3600000 := rfl
      have hpositive := s.facts.1.1
      simp only [fields, hhour, htime, ht]
      omega
    refine ⟨⟨fields, hvalid⟩ :: es, ?_, ?_, ?_⟩
    · unfold _events
      rw [hs]
      have hbuild : DecisionEvent.build fields = .ok ⟨fields, hvalid⟩ := construct_of_ok hvalid
      simp only [Except.mapError, ok_bind, hes]
      rw [show DecisionEvent.build _ = _ from hbuild]
      rfl
    · rw [map_cons, hmap]
    · intro e he
      rcases mem_cons.mp he with rfl | he
      · refine ⟨hhistory, ?_, rfl, ?_⟩
        · intro i
          obtain ⟨start, stop, hcovers, hwarmup, hend⟩ := hwarm i
          have hregime := i.milliseconds_le_regime
          have hpos := i.milliseconds_pos
          obtain ⟨c, -, hlast, hopen⟩ := hcovers.getLast?_visible (t := t)
            (hcovers.aligned (by omega)) (by omega) (by omega)
          refine ⟨c, ?_, hopen⟩
          change (s.history i).getLast? = some c
          rw [hhistory]
          exact hlast
        · obtain ⟨start, stop, hcovers, hwarmup, hend⟩ := hwarm .h1
          have hregime : (0 : ℤ) < regimeInterval.milliseconds := Interval.milliseconds_pos _
          exact hcovers.exists_open (t := t) (by omega) (by omega) (by omega) ht
      · exact hshows e he

theorem events_warm (hwarm : Warm d) : ∃ es : List DecisionEvent, events d = .ok es ∧
    es.map (fun e => e.decisionTimeMs) =
      timeRange d.spec.startTimeMs d.spec.endTimeMs primaryInterval.milliseconds ∧
    ∀ e ∈ es, Shows d e := by
  obtain ⟨⟨hpos, hlt, hstart, hstop⟩, -⟩ := d.spec.facts
  have hhour : primaryInterval.milliseconds = 3600000 := rfl
  have htimes : ∀ t ∈ timeRange d.spec.startTimeMs d.spec.endTimeMs
      primaryInterval.milliseconds, d.spec.startTimeMs ≤ t ∧ t < d.spec.endTimeMs ∧
        t % 3600000 = 0 := by
    intro t ht
    rw [mem_timeRange (Interval.milliseconds_pos _), hhour] at ht
    obtain ⟨hle, hlt', hdvd⟩ := ht
    exact ⟨hle, hlt', by omega⟩
  exact events_of_warm hwarm htimes (le_refl 0)

/-- For a specification derived from a manifest and the dataset loaded for it, the clock runs
through every hour of the range and shows at each of them exactly what is closed. -/
theorem clock_complete {database : CandleDatabase} {text symbol : String} {hours : ℤ}
    {spec : BacktestSpec} {dataset : AcceptedBacktestDataset}
    (hspec : Loader.latestSpecFromManifest text symbol hours = .ok spec)
    (hload : Loader.loadAcceptedDataset database text spec = .ok dataset) :
    ∃ es, events dataset = .ok es ∧ (es.length : ℤ) = eventCount dataset ∧
      es.Pairwise (fun e f => e.decisionTimeMs < f.decisionTimeMs) ∧ ∀ e ∈ es, Shows dataset e := by
  obtain ⟨-, hwarm⟩ := Loader.warm_of_load hspec hload
  obtain ⟨⟨hpos, hlt, hstart, hstop⟩, -⟩ := dataset.spec.facts
  obtain ⟨es, hes, hmap, hshows⟩ := events_warm hwarm
  have hhour : primaryInterval.milliseconds = 3600000 := rfl
  refine ⟨es, hes, ?_, ?_, hshows⟩
  · have hlength := congrArg List.length hmap
    rw [List.length_map, length_timeRange, hhour] at hlength
    unfold eventCount
    rw [hhour]
    omega
  · have hincreasing : (timeRange dataset.spec.startTimeMs dataset.spec.endTimeMs
        primaryInterval.milliseconds).Pairwise (· < ·) :=
      pairwise_timeRange (Interval.milliseconds_pos primaryInterval)
    rw [← hmap, List.pairwise_map] at hincreasing
    exact hincreasing

@[irreducible] def sampleReport (symbol : Symbol) (interval : Interval) : Json := .dict [
  ("source", .str dataSource),
  ("symbol", .str symbol.value),
  ("interval", .str interval.value),
  ("requested_start_time_ms", .int 14400000),
  ("requested_end_time_ms", .int 2606400000),
  ("stored_first_open_time_ms", .int 14400000),
  ("stored_last_open_time_ms", .int (2606400000 - interval.milliseconds)),
  ("freshness_ms", .int 0),
  ("total_rows", .int (Audit.expectedRows interval)),
  ("unique_rows", .int (Audit.expectedRows interval)),
  ("closed_rows", .int (Audit.expectedRows interval)),
  ("open_rows", .int 0),
  ("malformed_rows", .int 0),
  ("conflicting_rows", .int 0),
  ("duplicate_open_times", .list []),
  ("historical_gap_open_times", .list []),
  ("unexpected_open_times", .list []),
  ("repair_ranges", .list []),
  ("failure_reasons", .list []),
  ("backtest_ready", .bool true),
  ("fresh", .bool true)]

def sampleAccepted (pair : Symbol × Interval) : HealthReport where
  symbol := pair.1
  interval := pair.2
  requestedStartTimeMs := 14400000
  requestedEndTimeMs := 2606400000
  totalRows := .int (Audit.expectedRows pair.2)

def sampleDatasetManifest : DatasetManifest where
  generatedAtMs := 2606400000
  databaseSchemaVersion := .int 1
  datasets := Audit.expectedPairs.map sampleAccepted

theorem canonical_int {n : ℤ} (h : (Nat.toDigits 10 n.natAbs).length ≤ Json.maxIntDigits) :
    (Json.int n).Canonical := h

theorem canonical_sampleReport (symbol : Symbol) (interval : Interval) :
    (sampleReport symbol interval).Canonical := by
  have hzero : (int 0).Canonical := canonical_int (by decide)
  have hstart : (int 14400000).Canonical := canonical_int (by decide)
  have hstop : (int 2606400000).Canonical := canonical_int (by decide)
  have hlast : (int (2606400000 - interval.milliseconds)).Canonical := by
    apply canonical_int
    cases interval <;> decide
  have hrows : (int (Audit.expectedRows interval)).Canonical := by
    apply canonical_int
    cases interval <;> decide
  have hempty : (Json.list []).Canonical := canonical_list nofun
  have hstr : ∀ s, (str s).Canonical := fun _ => trivial
  have htrue : (bool true).Canonical := trivial
  unfold sampleReport
  refine canonical_dict ?_
  simp only [forall_mem_cons, hzero, hstart, hstop, hlast, hrows, hempty, hstr, htrue,
    true_and, not_mem_nil, false_implies, implies_true]

theorem canonical_list_map {α : Type} {f : α → Json} {items : List α}
    (h : ∀ a ∈ items, (f a).Canonical) : (Json.list (items.map f)).Canonical := by
  refine canonical_list ?_
  intro v hv
  obtain ⟨a, ha, rfl⟩ := mem_map.mp hv
  exact h a ha

/-- The manifest over a list of reports. -/
@[irreducible] def manifestOf (reports : Json) : Json := .dict [
  ("schema_version", .int 1),
  ("database_schema_version", .int 1),
  ("dataset_kind", .str datasetKind),
  ("range_days", .int expectedDays),
  ("generated_at_ms", .int 2606400000),
  ("datasets", reports)]

theorem canonical_manifestOf {reports : Json} (h : reports.Canonical) :
    (manifestOf reports).Canonical := by
  have hone : (int 1).Canonical := canonical_int (by decide)
  have hdays : (int expectedDays).Canonical := canonical_int (by decide)
  have hstop : (int 2606400000).Canonical := canonical_int (by decide)
  have hstr : ∀ s, (str s).Canonical := fun _ => trivial
  unfold manifestOf
  refine canonical_dict ?_
  simp only [forall_mem_cons, hone, hdays, hstop, hstr, h, true_and, not_mem_nil,
    false_implies, implies_true]

def sampleManifest : Json :=
  manifestOf (.list (Audit.expectedPairs.map fun pair => sampleReport pair.1 pair.2))

def sampleText : String := sampleManifest.dumps

theorem loads_sampleText : Json.loads sampleText = some sampleManifest := by
  unfold sampleText
  refine loads_dumps ?_
  refine canonical_manifestOf ?_
  refine canonical_list_map ?_
  intro pair _
  exact canonical_sampleReport pair.1 pair.2

set_option maxRecDepth 100000 in
theorem size_sampleText : ¬ (Loader._size sampleText = 0 ∨
    maxManifestBytes < Loader._size sampleText) := by
  unfold Loader._size sampleText dumps
  rw [String.toList_ofList]
  decide +kernel

theorem decode_object (ms : JsonMembers) :
    Loader._decode (Json.object ms).dumps = (Json.object ms).dumps := by
  unfold Loader._decode dumps
  rw [String.toList_ofList]
  cases ms with
  | nil => rfl
  | cons k v ms =>
    rw [Json.text]
    rfl

theorem decode_dict (entries : List (String × Json)) :
    Loader._decode (Json.dict entries).dumps = (Json.dict entries).dumps := decode_object _

theorem decode_sampleText : Loader._decode sampleText = sampleText := by
  unfold sampleText sampleManifest manifestOf
  exact decode_dict _

theorem manifestSnapshot_sampleText :
    Loader._manifestSnapshot sampleText = .ok sampleDatasetManifest := by
  have hloads : loads (Loader._decode sampleText) = some sampleManifest := by
    rw [decode_sampleText]
    exact loads_sampleText
  have haudit : (Audit.auditP1Manifest sampleManifest).isOk = true := by decide +kernel
  have hread : DatasetManifest.ofJson? sampleManifest = some sampleDatasetManifest := by
    decide +kernel
  unfold Loader._manifestSnapshot
  rw [raiseIf_bind_eq_ok, hloads]
  refine ⟨size_sampleText, ?_⟩
  cases hseen : Audit.auditP1Manifest sampleManifest with
  | error e =>
    rw [hseen] at haudit
    cases haudit
  | ok seen =>
    simp only [hseen, hread]
    rfl

/-- The range of the last day. -/
def sampleSpec : BacktestSpec where
  symbol := .btcusdt
  startTimeMs := 2520000000
  endTimeMs := 2606400000
  valid := by decide

def sampleReports (i : Interval) : HealthReport := sampleAccepted (.btcusdt, i)

theorem reportsFor_sample :
    Loader._reportsFor sampleDatasetManifest "BTCUSDT" = .ok sampleReports := by
  have hreports : ∃ reports, Loader._reportsFor sampleDatasetManifest "BTCUSDT" = .ok reports ∧
      ∀ i, reports i = sampleReports i := by
    refine ⟨_, rfl, ?_⟩
    intro i
    cases i <;> rfl
  obtain ⟨reports, hreports, hvalue⟩ := hreports
  rw [hreports, funext hvalue]

theorem latestSpec_sample :
    Loader.latestSpecFromManifest sampleText "BTCUSDT" 24 = .ok sampleSpec := by
  unfold Loader.latestSpecFromManifest
  rw [raiseIf_bind_eq_ok, manifestSnapshot_sampleText, ok_bind, reportsFor_sample, ok_bind]
  dsimp only
  rw [raiseIf_bind_eq_ok, mapError_eq_ok, construct_eq_ok]
  exact ⟨by decide, by decide, by decide, rfl⟩

/-- A candle of the sample, at the price one hundred. -/
def sampleCandle (i : Interval) (k : ℕ) : Candle where
  toFields := Candle.flat .btcusdt i (k * i.milliseconds) "100"
  valid := Candle.postInit_flat .btcusdt (mul_nonneg (Int.natCast_nonneg k) i.milliseconds_pos.le)
    (Int.mul_emod_left _ _)

def sampleCandles (i : Interval) : List Candle :=
  (List.range (Audit.expectedRows i).toNat).map fun j =>
    sampleCandle i ((14400000 / i.milliseconds).toNat + j)

def sampleDatabase : CandleDatabase where
  schemaMigrations := [1]
  candles := intervals.flatMap fun i => (sampleCandles i).map Candle.row

theorem covers_sampleCandles (i : Interval) :
    Loader.Covers .btcusdt i 14400000 2606400000 (sampleCandles i) where
  identity := by
    intro c hc
    obtain ⟨j, -, rfl⟩ := mem_map.mp hc
    exact ⟨rfl, rfl, rfl⟩
  times := by
    have hcount : ((2606400000 - 14400000 + i.milliseconds - 1) / i.milliseconds).toNat =
        (Audit.expectedRows i).toNat := by
      cases i <;> decide
    unfold sampleCandles timeRange
    rw [hcount, map_map]
    apply map_congr_left
    intro j _
    change (((14400000 / i.milliseconds).toNat + j : ℕ) : ℤ) * i.milliseconds = _
    have hfirst : (((14400000 / i.milliseconds).toNat : ℕ) : ℤ) * i.milliseconds = 14400000 := by
      cases i <;> decide
    push_cast at hfirst ⊢
    rw [add_mul, hfirst]

theorem stores_sample (i : Interval) :
    Loader.Stores sampleDatabase (sampleReports i) sampleCandles := by
  constructor
  · unfold sampleDatabase
    dsimp only
  · exact covers_sampleCandles

theorem length_sampleCandles (i : Interval) :
    (sampleCandles i).length = (Audit.expectedRows i).toNat := by
  unfold sampleCandles
  rw [length_map, length_range]

theorem readRows_sample (i : Interval) :
    Loader._readRows sampleDatabase (sampleReports i) = .ok (sampleCandles i) := by
  have hlength := length_sampleCandles i
  apply Loader.readRows_of_stores (stores_sample i)
  · change (int (sampleCandles i).length).same _ = true
    rw [hlength]
    cases i <;> decide
  · change (sampleCandles i).length ≤ maxLoadedRows
    rw [hlength]
    cases i <;> decide

def sampleDataset : AcceptedBacktestDataset where
  spec := sampleSpec
  manifestGeneratedAtMs := 2606400000
  primary := sampleCandles .h1
  context := sampleCandles .m15
  regime := sampleCandles .h4

theorem load_sample :
    Loader.loadAcceptedDataset sampleDatabase sampleText sampleSpec = .ok sampleDataset := by
  unfold Loader.loadAcceptedDataset
  rw [manifestSnapshot_sampleText, ok_bind]
  change (Loader._reportsFor sampleDatasetManifest "BTCUSDT" >>= _) = _
  rw [reportsFor_sample, ok_bind, raiseIf_bind_eq_ok, raiseIf_bind_eq_ok]
  simp only [readRows_sample, ok_bind]
  exact ⟨by decide, by decide, rfl⟩

theorem clock_complete_sample : ∃ es, events sampleDataset = .ok es ∧
    (es.length : ℤ) = eventCount sampleDataset ∧
    es.Pairwise (fun e f => e.decisionTimeMs < f.decisionTimeMs) ∧
    ∀ e ∈ es, Shows sampleDataset e :=
  clock_complete latestSpec_sample load_sample

end BacktestClock

/-!
## The order of the clock

Whatever the dataset, the events are numbered from zero, their times increase,
and a later snapshot shows at least as many candles of every interval.
-/

open AcceptedBacktestDataset

variable {d : AcceptedBacktestDataset} {t : ℤ}

theorem AcceptedBacktestDataset.snapshotAt_eq_ok {s : MarketSnapshot}
    (h : d.snapshotAt t = .ok s) :
    s.symbol = d.spec.symbol ∧ s.decisionTimeMs = t ∧ ∀ i, s.history i = visible t (d.history i) := by
  unfold snapshotAt at h
  rw [raiseIf_bind_eq_ok] at h
  obtain ⟨-, rfl⟩ := construct_eq_ok.mp (mapError_eq_ok.mp h.2)
  refine ⟨rfl, rfl, fun i => ?_⟩
  cases i with
  | m15 => rfl
  | h1 => rfl
  | h4 => rfl

theorem AcceptedBacktestDataset.length_visible_le {u : ℤ} (h : t ≤ u) (candles : List Candle) :
    (visible t candles).length ≤ (visible u candles).length := by
  apply Sublist.length_le
  apply monotone_filter_right
  intro c hc
  rw [decide_eq_true_eq] at hc ⊢
  omega

namespace BacktestClock

structure Taken (d : AcceptedBacktestDataset) (e : DecisionEvent) : Prop where
  fill : e.eligibleFillOpenTimeMs = e.decisionTimeMs
  snapshot : d.snapshotAt e.decisionTimeMs = .ok e.snapshot

variable {e f : DecisionEvent} {es : List DecisionEvent}

theorem Taken.eq (he : Taken d e) (hf : Taken d f)
    (hsequence : e.sequence = f.sequence) (htime : e.decisionTimeMs = f.decisionTimeMs) :
    e = f := by
  have hsnapshot := he.snapshot.symm.trans (htime ▸ hf.snapshot)
  cases e with
  | mk e he' =>
    cases f with
    | mk f hf' =>
      cases e
      cases f
      cases hsequence
      cases htime
      cases hsnapshot
      cases he.fill
      cases hf.fill
      rfl

theorem events_eq_ok {n : ℤ} {times : List ℤ} (h : _events d n times = .ok es) :
    es.map (fun e => e.decisionTimeMs) = times ∧
      es.map (fun e => e.sequence) = (List.range es.length).map (fun i : ℕ => n + i) ∧
      ∀ e ∈ es, Taken d e := by
  induction times generalizing n es with
  | nil =>
    cases h
    exact ⟨rfl, rfl, nofun⟩
  | cons t times ih =>
    unfold _events at h
    obtain ⟨s, hs, h⟩ := bind_eq_ok.mp h
    obtain ⟨e, he, h⟩ := bind_eq_ok.mp h
    obtain ⟨rest, hrest, h⟩ := bind_eq_ok.mp h
    cases h
    obtain ⟨-, rfl⟩ := construct_eq_ok.mp he
    obtain ⟨htimes, hsequences, htaken⟩ := ih hrest
    refine ⟨by rw [map_cons, htimes], ?_, ?_⟩
    · rw [map_cons, hsequences, length_cons, range_succ_eq_map, map_cons,
        map_map]
      congr 1
      · simp
      · apply map_congr_left
        intro i _
        simp only [Function.comp_apply, Nat.succ_eq_add_one]
        push_cast
        ring
    · intro x hx
      rcases mem_cons.mp hx with rfl | hx
      · exact ⟨rfl, mapError_eq_ok.mp hs⟩
      · exact htaken x hx

theorem next_event {all : List DecisionEvent} (hall : events d = .ok all) (h : es ++ [e] <+: all) :
    e.sequence = es.length ∧ (∀ f ∈ es, f.decisionTimeMs < e.decisionTimeMs) ∧
      (∀ f ∈ es, Taken d f) ∧ Taken d e := by
  obtain ⟨htimes, hsequences, htaken⟩ := events_eq_ok hall
  obtain ⟨rest, rfl⟩ := h
  have hmem : ∀ f ∈ es ++ [e], f ∈ es ++ [e] ++ rest := fun f hf => mem_append_left _ hf
  refine ⟨?_, ?_, fun f hf => htaken f (hmem f (mem_append_left _ hf)),
    htaken e (hmem e (mem_append_right _ mem_cons_self))⟩
  · have hat := congrArg (fun l : List ℤ => l[es.length]?) hsequences
    simpa using hat
  · have hincreasing : (timeRange d.spec.startTimeMs d.spec.endTimeMs
        primaryInterval.milliseconds).Pairwise (· < ·) :=
      pairwise_timeRange (Interval.milliseconds_pos primaryInterval)
    rw [← htimes, pairwise_map, append_assoc, pairwise_append] at hincreasing
    intro f hf
    exact hincreasing.2.2 f hf e mem_cons_self

theorem Taken.length_history_le (hf : Taken d f) (he : Taken d e)
    (h : f.decisionTimeMs ≤ e.decisionTimeMs) (i : Interval) :
    (f.snapshot.history i).length ≤ (e.snapshot.history i).length := by
  rw [(snapshotAt_eq_ok hf.snapshot).2.2, (snapshotAt_eq_ok he.snapshot).2.2]
  exact length_visible_le h _

end BacktestClock

end TradingLab
