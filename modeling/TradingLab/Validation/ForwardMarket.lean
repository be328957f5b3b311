import TradingLab.Validation.PaperRunner

/-!
# Complete prefixes of the window

When a store holds every candle from the start of the window to the end of each
range, the snapshot of these ranges is accepted, the store reproduces it, and
each market has a dataset whose histories reach back far enough for a decision
at every hour.
-/

namespace TradingLab

open List

open ForwardIngestionSnapshot (expectedPairs)

namespace Loader.Covers

variable {symbol : Symbol} {interval : Interval} {start mid stop : ℤ} {xs ys : List Candle}

theorem nil (hle : stop ≤ start) : Covers symbol interval start stop [] where
  identity := by
    intro c hc
    cases hc
  times := (timeRange_of_le interval.milliseconds_pos hle).symm

theorem cons {c : Candle} (hc : c.symbol = symbol ∧ c.interval = interval ∧ c.isClosed = true)
    (hlt : c.openTimeMs < stop)
    (h : Covers symbol interval (c.openTimeMs + interval.milliseconds) stop xs) :
    Covers symbol interval c.openTimeMs stop (c :: xs) where
  identity := List.forall_mem_cons.mpr ⟨hc, h.identity⟩
  times := by rw [map_cons, h.times, timeRange_of_lt interval.milliseconds_pos hlt]

theorem append (h : Covers symbol interval start mid xs) (hle : mid ≤ stop)
    (haligned : interval.milliseconds ∣ mid - start) (hstart : start ≤ mid)
    (h' : Covers symbol interval mid stop ys) : Covers symbol interval start stop (xs ++ ys) := by
  have hpos := interval.milliseconds_pos
  induction xs generalizing start with
  | nil =>
    have heq : start = mid := by
      rcases hstart.lt_or_eq with hlt | heq
      · exact (h.ne_nil hlt rfl).elim
      · exact heq
    rw [heq]
    exact h'
  | cons c xs ih =>
    obtain ⟨hopen, hrest⟩ := h.tail
    have hlt : start < mid := by
      by_contra hge
      have htimes := h.times
      rw [timeRange_of_le hpos (not_lt.mp hge)] at htimes
      cases htimes
    have hnext : interval.milliseconds ∣ mid - (start + interval.milliseconds) := by
      rw [← sub_sub]
      exact dvd_sub_self_right.mpr haligned
    have hle' : start + interval.milliseconds ≤ mid := by
      have := Int.le_of_dvd (by omega) haligned
      omega
    subst hopen
    exact (ih hrest hnext hle').cons (h.identity c mem_cons_self) (by omega)

theorem series (c : Candle) (hclosed : c.isClosed = true) (n : ℕ) :
    Covers c.symbol c.interval c.openTimeMs (c.openTimeMs + n * c.interval.milliseconds)
      (c.series n) where
  identity := by
    intro d hd
    obtain ⟨k, -, rfl⟩ := mem_map.mp hd
    exact ⟨rfl, rfl, hclosed⟩
  times := by
    have hpos := c.interval.milliseconds_pos
    have hcount : (c.openTimeMs + n * c.interval.milliseconds - c.openTimeMs +
        c.interval.milliseconds - 1) / c.interval.milliseconds = n := by
      rw [Int.ediv_eq_iff_of_pos hpos]
      constructor <;> linarith
    unfold timeRange Candle.series
    rw [hcount, Int.toNat_natCast, map_map]
    rfl

end Loader.Covers

/-- Closed candles of both markets, without a gap from the start of the window to the end of
each range. -/
structure ForwardMarket where
  candles : Symbol → Interval → List Candle
  endTimeMs : Symbol → Interval → ℤ
  serverTimeMs : ℤ
  healthSha256 : Symbol → Interval → String
  covers : ∀ s i, Loader.Covers s i forwardWindowStartMs (endTimeMs s i) (candles s i)
  begun : ∀ s i, forwardWindowStartMs < endTimeMs s i
  aligned : ∀ s i, endTimeMs s i % i.milliseconds = 0
  seen : ∀ s i, endTimeMs s i ≤ serverTimeMs
  reported : ∀ s i, Sha256.isHexDigest (healthSha256 s i)

namespace ForwardMarket

/-- A closed candle at the price one hundred. -/
def steadyCandle (symbol : Symbol) (interval : Interval) : Candle where
  toFields := Candle.flat symbol interval forwardWindowStartMs "100"
  valid := Candle.postInit_flat symbol (by decide) (by cases interval <;> decide)

/-- The first candles of a market that never moves. -/
def steadyCandles (symbol : Symbol) (interval : Interval) (n : ℕ) : List Candle :=
  (steadyCandle symbol interval).series n

theorem covers_steadyCandles (symbol : Symbol) (interval : Interval) (n : ℕ) :
    Loader.Covers symbol interval forwardWindowStartMs
      (forwardWindowStartMs + n * interval.milliseconds) (steadyCandles symbol interval n) :=
  .series (steadyCandle symbol interval) rfl n

variable (m : ForwardMarket) {symbol : Symbol} {interval : Interval} {stop : ℤ}

def store : ForwardCandleStore where
  database := {
    schemaMigrations := [1]
    candles := expectedPairs.flatMap fun p => (m.candles p.1 p.2).map Candle.row }

theorem start_aligned (i : Interval) : forwardWindowStartMs % i.milliseconds = 0 := by
  cases i <;> decide

def evidenceFields (symbol : Symbol) (interval : Interval) : ForwardDatasetEvidence.Fields where
  symbol := symbol
  interval := interval
  requestedStartTimeMs := forwardWindowStartMs
  requestedEndTimeMs := m.endTimeMs symbol interval
  serverTimeMs := m.serverTimeMs
  totalRows := (m.endTimeMs symbol interval - forwardWindowStartMs) / interval.milliseconds
  firstOpenTimeMs := forwardWindowStartMs
  lastOpenTimeMs := m.endTimeMs symbol interval - interval.milliseconds
  datasetSha256 := _datasetDigest (m.candles symbol interval)
  healthSha256 := m.healthSha256 symbol interval

theorem postInit_evidenceFields (symbol : Symbol) (interval : Interval) :
    (m.evidenceFields symbol interval).postInit = .ok () := by
  have hbegun := m.begun symbol interval
  have haligned := m.aligned symbol interval
  have hseen := m.seen symbol interval
  have hstart := start_aligned interval
  have hreported := m.reported symbol interval
  have hdigest : Sha256.isHexDigest (_datasetDigest (m.candles symbol interval)) = true :=
    Sha256.isHexDigest_hexDigest _
  unfold ForwardDatasetEvidence.Fields.postInit evidenceFields
  rw [raiseIf_eq_ok]
  simp only [hstart, haligned, hdigest, hreported]
  simp
  omega

def evidence (symbol : Symbol) (interval : Interval) : ForwardDatasetEvidence :=
  ⟨m.evidenceFields symbol interval, m.postInit_evidenceFields symbol interval⟩

def snapshot : ForwardIngestionSnapshot where
  generatedAtMs := m.serverTimeMs
  datasets := expectedPairs.map fun p => m.evidence p.1 p.2
  valid := by
    have hserver : forwardWindowStartMs < m.serverTimeMs :=
      (m.begun .btcusdt .h1).trans_le (m.seen .btcusdt .h1)
    unfold ForwardIngestionSnapshot.Fields.postInit
    rw [raiseIf_eq_ok, not_or, not_or, not_le]
    refine ⟨hserver, ?_, ?_⟩
    · rw [List.map_map, not_not]
      exact List.map_id _
    · rintro ⟨e, he, hbad⟩
      obtain ⟨p, -, rfl⟩ := List.mem_map.mp he
      exact hbad rfl

variable {m}

theorem open_of_mem {c : Candle} (hc : c ∈ m.candles symbol interval) :
    forwardWindowStartMs ≤ c.openTimeMs ∧ c.openTimeMs < m.endTimeMs symbol interval := by
  have hmem : c.openTimeMs ∈ (m.candles symbol interval).map fun c => c.openTimeMs :=
    mem_map_of_mem hc
  rw [(m.covers symbol interval).times, mem_timeRange interval.milliseconds_pos] at hmem
  exact ⟨hmem.1, hmem.2.1⟩

/-- Only the rows of the market and interval asked for are selected. -/
theorem filter_rows (p : Symbol × Interval) : ((m.candles p.1 p.2).map Candle.row).filter
      (fun r => r.source = dataSource ∧ r.symbol = symbol.value ∧ r.interval = interval.value ∧
        (Cell.int forwardWindowStartMs).le r.openTimeMs ∧ ¬ (Cell.int stop).le r.openTimeMs) =
    if p = (symbol, interval) then
      ((m.candles symbol interval).filter fun c => c.openTimeMs < stop).map Candle.row
    else [] := by
  have hcovers := m.covers p.1 p.2
  split_ifs with hp
  · subst hp
    rw [filter_map]
    congr 1
    apply filter_congr
    intro c hc
    obtain ⟨hsymbol, hinterval, -⟩ := hcovers.identity c hc
    obtain ⟨hstart, -⟩ := open_of_mem hc
    have hstop : decide (stop ≤ c.openTimeMs) = !decide (c.openTimeMs < stop) := by
      simp only [← not_lt, decide_not]
    simp [Candle.row, hsymbol, hinterval, Cell.le, Cell.toRat, hstart, hstop]
  · rw [filter_eq_nil_iff]
    intro r hr
    obtain ⟨c, hc, rfl⟩ := mem_map.mp hr
    obtain ⟨hsymbol, hinterval, -⟩ := hcovers.identity c hc
    simp only [Candle.row, decide_eq_true_eq]
    rintro ⟨-, hs, hi, -⟩
    apply hp
    have hs' := Symbol.value_injective hs
    have hi' := Loader.Interval.value_injective hi
    rw [← hs', ← hi', hsymbol, hinterval]

theorem rowsBetween_store (symbol : Symbol) (interval : Interval) (stop : ℤ) :
    m.store.database.rowsBetween symbol interval forwardWindowStartMs stop =
      ((m.candles symbol interval).filter fun c => c.openTimeMs < stop).map Candle.row := by
  unfold CandleDatabase.rowsBetween store
  dsimp only
  rw [filter_flatMap]
  simp only [filter_rows]
  have hpairs : (expectedPairs.flatMap fun p => if p = (symbol, interval) then
      ((m.candles symbol interval).filter fun c => c.openTimeMs < stop).map Candle.row else []) =
      ((m.candles symbol interval).filter fun c => c.openTimeMs < stop).map Candle.row := by
    cases symbol <;> cases interval <;>
      simp [expectedPairs, Symbol.all, Interval.all]
  rw [hpairs]
  apply Pairwise.insertionSort_eq
  have hsorted : ((m.candles symbol interval).map fun c => c.openTimeMs).Pairwise (· < ·) := by
    rw [(m.covers symbol interval).times]
    exact pairwise_timeRange interval.milliseconds_pos
  rw [pairwise_map] at hsorted ⊢
  apply (hsorted.filter _).imp
  intro c d hlt
  simpa [Candle.row, Cell.le, Cell.toRat] using hlt.le

theorem candlesBetween_store (hlt : forwardWindowStartMs < stop)
    (haligned : stop % interval.milliseconds = 0) :
    m.store.candlesBetween symbol interval forwardWindowStartMs stop =
      .ok ((m.candles symbol interval).filter fun c => c.openTimeMs < stop) := by
  apply ForwardCandleStore.candlesBetween_of_rows (rowsBetween_store symbol interval stop) le_rfl
    hlt (start_aligned interval) haligned
  intro c hc
  have hmem := (mem_filter.mp hc).1
  exact ⟨((m.covers symbol interval).identity c hmem).2.2, (open_of_mem hmem).1⟩

theorem candlesBetween_evidence (symbol : Symbol) (interval : Interval) :
    m.store.candlesBetween symbol interval forwardWindowStartMs (m.endTimeMs symbol interval) =
      .ok (m.candles symbol interval) := by
  rw [candlesBetween_store (m.begun symbol interval) (m.aligned symbol interval),
    filter_eq_self.mpr fun c hc => by simpa using (open_of_mem hc).2]

theorem length_candles (symbol : Symbol) (interval : Interval) :
    ((m.candles symbol interval).length : ℤ) =
      (m.endTimeMs symbol interval - forwardWindowStartMs) / interval.milliseconds := by
  have hlength := congrArg length (m.covers symbol interval).times
  rw [length_map, length_timeRange] at hlength
  have hbegun := m.begun symbol interval
  have haligned := m.aligned symbol interval
  have hstart := start_aligned interval
  rw [hlength]
  cases interval with
  | m15 =>
    simp only [Interval.milliseconds] at haligned hstart ⊢
    omega
  | h1 =>
    simp only [Interval.milliseconds] at haligned hstart ⊢
    omega
  | h4 =>
    simp only [Interval.milliseconds] at haligned hstart ⊢
    omega

open PaperRunner

theorem verifyEvidence_ok (symbol : Symbol) (interval : Interval) :
    _verifyEvidence m.store (m.evidence symbol interval) = .ok () := by
  have hcandles := candlesBetween_evidence (m := m) symbol interval
  unfold _verifyEvidence
  change (Except.mapError _ (m.store.candlesBetween symbol interval forwardWindowStartMs
    (m.endTimeMs symbol interval)) >>= _) = _
  rw [hcandles]
  change raiseIf _ _ = _
  rw [raiseIf_eq_ok, length_candles]
  simp [evidence, evidenceFields]

theorem verifyAll_eq_ok {store : ForwardCandleStore} {es : List ForwardDatasetEvidence}
    (h : ∀ e ∈ es, _verifyEvidence store e = .ok ()) : _verifyAll store es = .ok () := by
  induction es with
  | nil => rfl
  | cons e es ih =>
    unfold _verifyAll
    rw [h e mem_cons_self, ok_bind]
    exact ih fun x hx => h x (mem_cons_of_mem e hx)

theorem verifySnapshotStore_ok : _verifySnapshotStore m.store m.snapshot = .ok () := by
  apply verifyAll_eq_ok
  intro e he
  obtain ⟨p, -, rfl⟩ := mem_map.mp he
  exact verifyEvidence_ok p.1 p.2

theorem evidence_snapshot (symbol : Symbol) (interval : Interval) :
    _evidence m.snapshot symbol interval = some (m.evidence symbol interval) := by
  unfold _evidence snapshot
  cases symbol <;> cases interval <;>
    simp [expectedPairs, Symbol.all, Interval.all, evidence, evidenceFields]

/-- The end that all ranges of a market reach. -/
def commonEnd (m : ForwardMarket) (symbol : Symbol) : ℤ :=
  min (m.endTimeMs symbol .m15) (min (m.endTimeMs symbol .h1) (m.endTimeMs symbol .h4))

theorem commonEnd_snapshot (symbol : Symbol) :
    _commonEnd m.snapshot symbol = .ok (m.commonEnd symbol) := by
  unfold _commonEnd
  rw [evidence_snapshot, evidence_snapshot, evidence_snapshot]
  rfl

/-- The dataset of a market over its whole ranges. -/
def dataset (m : ForwardMarket) (symbol : Symbol) (spec : BacktestSpec) :
    AcceptedBacktestDataset where
  spec := spec
  manifestGeneratedAtMs := m.serverTimeMs
  primary := m.candles symbol .h1
  context := m.candles symbol .m15
  regime := m.candles symbol .h4

section Even
variable (heven : ∀ i, m.endTimeMs symbol i = stop)
include heven

theorem prefix_even (interval : Interval) :
    _prefix m.store symbol stop interval = .ok (m.candles symbol interval) := by
  have hcandles := candlesBetween_evidence (m := m) symbol interval
  rw [heven] at hcandles
  unfold _prefix
  rw [hcandles]
  rfl

variable {spec : BacktestSpec} (hspec : _spec symbol firstDecisionTimeMs stop = .ok spec)
include hspec

theorem datasetForSymbol_even : _datasetForSymbol m.store m.snapshot symbol =
    .ok (m.dataset symbol spec, _datasetDigest
      (m.candles symbol .m15 ++ m.candles symbol .h1 ++ m.candles symbol .h4)) := by
  have hend : m.commonEnd symbol = stop := by
    unfold commonEnd
    rw [heven, heven, heven, min_self, min_self]
  have hlate : firstDecisionTimeMs < stop := by
    obtain ⟨hvalid, -⟩ := construct_eq_ok.mp hspec
    unfold BacktestSpec.Fields.postInit at hvalid
    rw [raiseIf_bind_eq_ok] at hvalid
    have hrange := hvalid.1
    dsimp only at hrange
    omega
  unfold _datasetForSymbol
  rw [commonEnd_snapshot, ok_bind, hend, raiseIf_neg (not_le.mpr hlate), ok_bind, hspec,
    prefix_even heven, prefix_even heven, prefix_even heven]
  rfl

theorem warm_even : Warm (m.dataset symbol spec) := by
  obtain ⟨hvalid, rfl⟩ := construct_eq_ok.mp hspec
  intro i
  have hcovers := m.covers symbol i
  rw [heven] at hcovers
  have hhistory : (m.dataset symbol ⟨_, hvalid⟩).history i = m.candles symbol i := by
    cases i <;> rfl
  refine ⟨forwardWindowStartMs, stop, ?_, ?_, le_rfl⟩
  · rw [hhistory]
    exact hcovers
  · change forwardWindowStartMs + regimeInterval.milliseconds ≤ firstDecisionTimeMs
    decide

/-- Its clock shows every hour from the first decision to the end. -/
theorem events_even : ∃ es, _events (m.dataset symbol spec) = .ok es ∧
    es.map (fun e => e.decisionTimeMs) =
      timeRange firstDecisionTimeMs stop primaryInterval.milliseconds ∧
    ∀ e ∈ es, Shows (m.dataset symbol spec) e := by
  have hwarm := warm_even heven hspec
  obtain ⟨hvalid, rfl⟩ := construct_eq_ok.mp hspec
  obtain ⟨es, hes, htimes, hshows⟩ := BacktestClock.events_warm hwarm
  refine ⟨es, ?_, htimes, hshows⟩
  have hpos : (0 : ℤ) < primaryInterval.milliseconds := Interval.milliseconds_pos _
  have hne : es ≠ [] := by
    rintro rfl
    have hlt := (BacktestSpec.mk _ hvalid).facts.1.2.1
    rw [map_nil] at htimes
    change [] = timeRange firstDecisionTimeMs stop primaryInterval.milliseconds at htimes
    rw [timeRange_of_lt hpos hlt] at htimes
    cases htimes
  have hdistinct : ((m.dataset symbol ⟨_, hvalid⟩).primary.map fun c => c.openTimeMs).Nodup := by
    change ((m.candles symbol .h1).map fun c => c.openTimeMs).Nodup
    rw [(m.covers symbol .h1).times]
    exact (pairwise_timeRange (Interval.milliseconds_pos .h1)).imp fun h => h.ne
  unfold _events
  rw [hes]
  change (raiseIf _ _ >>= _) = _
  rw [raiseIf_neg hne, ok_bind, raiseIf_neg (not_not.mpr hdistinct), ok_bind]
  rfl

end Even

end ForwardMarket

end TradingLab
