import TradingLab.Backtest.Artifacts
import TradingLab.Data.Audit
import TradingLab.Data.Quality
import TradingLab.Execution.Database

/-!
# Loading an accepted dataset

The loader reads the candles of the reported ranges and refuses anything but
closed candles at every open time of the range. A specification over the latest
common range starts after one closed candle of the longest interval.
-/

namespace TradingLab

open List

def intervals : List Interval := [primaryInterval, contextInterval, regimeInterval]
def maxLoadedRows : ℕ := 100000

/-- Accepted data could not be loaded; an error of the audit that is no audit error escapes. -/
inductive BacktestLoadError where
  | failed (message : String)
  | audit (error : AuditError)
deriving Repr, DecidableEq

/-- The columns of a row of the candle table. -/
structure CandleRow where
  source : String
  symbol : String
  interval : String
  openTimeMs : Cell
  closeTimeMs : Cell
  open' : String
  high : String
  low : String
  close : String
  baseVolume : String
  quoteVolume : String
  tradeCount : Cell
  isClosed : Cell
deriving DecidableEq

/-- The candle of a row, when its constructor accepts the columns. -/
def CandleRow.candle? (row : CandleRow) (isClosed : Bool) : Option Candle := do
  let symbol ← Symbol.ofText? row.symbol
  let interval ← Interval.ofText? row.interval
  let openTimeMs ← row.openTimeMs.int?
  let closeTimeMs ← row.closeTimeMs.int?
  let tradeCount ← row.tradeCount.int?
  let fields : Candle.Fields := {
    symbol, interval, openTimeMs, closeTimeMs
    open' := row.open'
    high := row.high
    low := row.low
    close := row.close
    baseVolume := row.baseVolume
    quoteVolume := row.quoteVolume
    tradeCount, isClosed }
  (construct fields.postInit fun h => (⟨fields, h⟩ : Candle)).toOption

/-- The row of a candle. -/
def Candle.row (c : Candle) : CandleRow where
  source := dataSource
  symbol := c.symbol.value
  interval := c.interval.value
  openTimeMs := .int c.openTimeMs
  closeTimeMs := .int c.closeTimeMs
  open' := c.open'
  high := c.high
  low := c.low
  close := c.close
  baseVolume := c.baseVolume
  quoteVolume := c.quoteVolume
  tradeCount := .int c.tradeCount
  isClosed := .int (if c.isClosed then 1 else 0)

structure CandleDatabase where
  schemaMigrations : List ℤ
  candles : List CandleRow

namespace Loader

/-- The text of the file without its byte-order mark. -/
def _decode (text : String) : String :=
  match text.toList with
  | c :: cs => if c.toNat = 0xfeff then String.ofList cs else text
  | [] => text

def _size (text : String) : ℕ := (text.toList.map Char.utf8Size).sum

def _manifestSnapshot (text : String) : Except BacktestLoadError DatasetManifest := do
  raiseIf (_size text = 0 ∨ maxManifestBytes < _size text) (.failed "Manifest size is invalid")
  match Json.loads (_decode text) with
  | none => .error (.failed "Manifest acceptance gate failed")
  | some manifest =>
      match Audit.auditP1Manifest manifest with
      | .error .unhashable => .error (.audit .unhashable)
      | .error (.failed _) => .error (.failed "Manifest acceptance gate failed")
      | .ok _ =>
          match DatasetManifest.ofJson? manifest with
          | none => .error (.failed "Manifest acceptance gate failed")
          | some manifest => return manifest

/-- The last report of an interval. -/
def _report? (manifest : DatasetManifest) (symbol : String) (interval : Interval) :
    Option HealthReport :=
  manifest.datasets.reverse.find? fun r => r.symbol.value = symbol ∧ r.interval = interval

def _reportsFor (manifest : DatasetManifest) (symbol : String) :
    Except BacktestLoadError (Interval → HealthReport) :=
  match _report? manifest symbol .h1, _report? manifest symbol .m15,
      _report? manifest symbol .h4 with
  | some primary, some context, some regime => return fun
    | .h1 => primary
    | .m15 => context
    | .h4 => regime
  | _, _, _ => .error (.failed "Accepted dataset coverage is incomplete")

/-- The range in which every interval has candles. -/
def _earliest (reports : Interval → HealthReport) : ℤ :=
  max (reports primaryInterval).requestedStartTimeMs
    (max (reports contextInterval).requestedStartTimeMs
      (reports regimeInterval).requestedStartTimeMs)

def _latest (reports : Interval → HealthReport) : ℤ :=
  min (reports primaryInterval).requestedEndTimeMs
    (min (reports contextInterval).requestedEndTimeMs (reports regimeInterval).requestedEndTimeMs)

def latestSpecFromManifest (text symbol : String) (hours : ℤ := 24) :
    Except BacktestLoadError BacktestSpec := do
  raiseIf (¬ (1 ≤ hours ∧ hours ≤ 24 * 365)) (.failed "Requested backtest hours are invalid")
  let manifest ← _manifestSnapshot text
  let reports ← _reportsFor manifest symbol
  let primary := primaryInterval.milliseconds
  let stop := _latest reports / primary * primary
  let start := stop - hours * primary
  -- one completed regime candle must exist before the first decision
  raiseIf (start < _earliest reports + regimeInterval.milliseconds)
    (.failed "Accepted dataset lacks the requested warmup range")
  let spec : BacktestSpec.Fields := {
    symbol := (reports primaryInterval).symbol
    startTimeMs := start
    endTimeMs := stop }
  (construct spec.postInit fun h => (⟨spec, h⟩ : BacktestSpec)).mapError fun _ =>
    .failed "Accepted manifest cannot form a backtest range"

/-- The rows of `candles` of one report, in the order of their open times. -/
def _select (database : CandleDatabase) (report : HealthReport) : List CandleRow :=
  (database.candles.filter fun r => r.source = dataSource ∧ r.symbol = report.symbol.value ∧
    r.interval = report.interval.value ∧ (Cell.int report.requestedStartTimeMs).le r.openTimeMs ∧
    ¬ (Cell.int report.requestedEndTimeMs).le r.openTimeMs).insertionSort
      fun r s => r.openTimeMs.le s.openTimeMs

def _candle (row : CandleRow) : Except BacktestLoadError Candle := do
  raiseIf (row.isClosed ≠ .int 0 ∧ row.isClosed ≠ .int 1)
    (.failed "Database candle state is invalid")
  match row.candle? (row.isClosed = .int 1) with
  | none => .error (.failed "Database row violates the canonical candle contract")
  | some candle => do
      raiseIf (¬ candle.isClosed) (.failed "Accepted backtest data contains an open candle")
      return candle

def _candles : List CandleRow → Except BacktestLoadError (List Candle)
  | [] => return []
  | row :: rows => do
      let candle ← _candle row
      let candles ← _candles rows
      return candle :: candles

def _readRows (database : CandleDatabase) (report : HealthReport) :
    Except BacktestLoadError (List Candle) := do
  let rows := _select database report
  raiseIf (¬ (Json.int rows.length).same report.totalRows ∨ maxLoadedRows < rows.length)
    (.failed "Database and accepted manifest row counts differ")
  let candles ← _candles rows
  raiseIf (candles.map (fun c => c.openTimeMs) ≠ timeRange report.requestedStartTimeMs
      report.requestedEndTimeMs report.interval.milliseconds)
    (.failed "Database candle coverage differs from the accepted manifest")
  return candles

def _version (database : CandleDatabase) : ℤ := (database.schemaMigrations.max?).getD 0

def loadAcceptedDataset (database : CandleDatabase) (text : String) (spec : BacktestSpec) :
    Except BacktestLoadError AcceptedBacktestDataset := do
  let manifest ← _manifestSnapshot text
  let reports ← _reportsFor manifest spec.symbol.value
  raiseIf (∃ i ∈ intervals, spec.startTimeMs < (reports i).requestedStartTimeMs ∨
      (reports i).requestedEndTimeMs < spec.endTimeMs)
    (.failed "Backtest range is outside the accepted dataset")
  raiseIf (¬ (Json.int (_version database)).same manifest.databaseSchemaVersion)
    (.failed "Database schema and accepted manifest differ")
  let primary ← _readRows database (reports primaryInterval)
  let context ← _readRows database (reports contextInterval)
  let regime ← _readRows database (reports regimeInterval)
  return {
    spec
    manifestGeneratedAtMs := manifest.generatedAtMs
    primary, context, regime }

/-- Closed candles of one market at every open time of a range. -/
structure Covers (symbol : Symbol) (interval : Interval) (start stop : ℤ)
    (candles : List Candle) : Prop where
  identity : ∀ c ∈ candles, c.symbol = symbol ∧ c.interval = interval ∧ c.isClosed = true
  times : candles.map (fun c => c.openTimeMs) = timeRange start stop interval.milliseconds

variable {s : String} {x : Interval} {row : CandleRow} {c : Candle} {candles : List Candle}

theorem Symbol.value_of_ofText? {x : Symbol} (h : Symbol.ofText? s = some x) :
    x.value = s := by
  simpa using find?_some h

theorem Interval.value_of_ofText? (h : Interval.ofText? s = some x) :
    x.value = s := by
  simpa using find?_some h

theorem Interval.value_injective {y : Interval} (h : x.value = y.value) : x = y := by
  have := congrArg Interval.ofText? h
  simpa using this

theorem candle?_eq_some {isClosed : Bool} (h : row.candle? isClosed = some c) :
    c.symbol.value = row.symbol ∧ c.interval.value = row.interval ∧ c.isClosed = isClosed := by
  unfold CandleRow.candle? at h
  simp only [Option.bind_eq_bind, Option.bind_eq_some_iff] at h
  obtain ⟨symbol, hsymbol, interval, hinterval, openTimeMs, -, closeTimeMs, -, tradeCount, -, h⟩ := h
  generalize hx : construct _ _ = x at h
  cases x with
  | error e => cases h
  | ok c' =>
    cases h
    obtain ⟨hvalid, rfl⟩ := construct_eq_ok.mp hx
    exact ⟨Symbol.value_of_ofText? hsymbol, Interval.value_of_ofText? hinterval, rfl⟩

theorem candle_eq_ok (h : _candle row = .ok c) :
    c.symbol.value = row.symbol ∧ c.interval.value = row.interval ∧ c.isClosed = true := by
  unfold _candle at h
  rw [raiseIf_bind_eq_ok] at h
  obtain ⟨-, h⟩ := h
  split at h
  · cases h
  · rename_i c' hc
    rw [raiseIf_bind_eq_ok, not_not] at h
    obtain ⟨hclosed, h⟩ := h
    cases h
    exact ⟨(candle?_eq_some hc).1, (candle?_eq_some hc).2.1, hclosed⟩

theorem candles_eq_ok {rows : List CandleRow}
    (h : _candles rows = .ok candles) : ∀ c ∈ candles, ∃ row ∈ rows, _candle row = .ok c := by
  induction rows generalizing candles with
  | nil =>
    cases h
    exact nofun
  | cons row rows ih =>
    unfold _candles at h
    obtain ⟨first, hfirst, h⟩ := bind_eq_ok.mp h
    obtain ⟨rest, hrest, h⟩ := bind_eq_ok.mp h
    cases h
    intro c hc
    rcases mem_cons.mp hc with rfl | hc
    · exact ⟨row, mem_cons_self, hfirst⟩
    · obtain ⟨r, hr, hcr⟩ := ih hrest c hc
      exact ⟨r, mem_cons_of_mem _ hr, hcr⟩

theorem readRows_eq_ok {database : CandleDatabase} {report : HealthReport}
    (h : _readRows database report = .ok candles) :
    Covers report.symbol report.interval report.requestedStartTimeMs report.requestedEndTimeMs
      candles := by
  unfold _readRows at h
  rw [raiseIf_bind_eq_ok] at h
  obtain ⟨rows, hrows, h⟩ := bind_eq_ok.mp h.2
  rw [raiseIf_bind_eq_ok, not_not] at h
  obtain ⟨htimes, h⟩ := h
  cases h
  refine ⟨?_, htimes⟩
  intro c hc
  obtain ⟨row, hrow, hcandle⟩ := candles_eq_ok hrows c hc
  obtain ⟨hsymbol, hinterval, hclosed⟩ := candle_eq_ok hcandle
  unfold _select at hrow
  rw [mem_insertionSort, mem_filter] at hrow
  simp only [decide_eq_true_eq] at hrow
  obtain ⟨-, -, hrs, hri, -⟩ := hrow
  exact ⟨Symbol.value_injective (hsymbol.trans hrs),
    Interval.value_injective (hinterval.trans hri), hclosed⟩

theorem reportsFor_eq_ok {manifest : DatasetManifest} {symbol : String}
    {reports : Interval → HealthReport} (h : _reportsFor manifest symbol = .ok reports)
    (i : Interval) : (reports i).symbol.value = symbol ∧ (reports i).interval = i := by
  unfold _reportsFor at h
  split at h
  · rename_i primary context regime hprimary hcontext hregime
    cases h
    unfold _report? at hprimary hcontext hregime
    cases i with
    | m15 => simpa using find?_some hcontext
    | h1 => simpa using find?_some hprimary
    | h4 => simpa using find?_some hregime
  · cases h

end Loader

/-- The candles of one interval. -/
def AcceptedBacktestDataset.history (d : AcceptedBacktestDataset) : Interval → List Candle
  | .h1 => d.primary
  | .m15 => d.context
  | .h4 => d.regime

/-- The histories of a dataset reach back one regime candle before its range, and cover it. -/
def Warm (d : AcceptedBacktestDataset) : Prop :=
  ∀ i, ∃ start stop, Loader.Covers d.spec.symbol i start stop (d.history i) ∧
    start + regimeInterval.milliseconds ≤ d.spec.startTimeMs ∧ d.spec.endTimeMs ≤ stop

namespace Loader

variable {text : String} {spec : BacktestSpec} {database : CandleDatabase}

variable {symbol : String} {hours : ℤ} {dataset : AcceptedBacktestDataset} {report : HealthReport}
  {candles : Interval → List Candle}

/-- The range of a specification lies in the common range of the reports. -/
theorem latestSpec_eq_ok (h : latestSpecFromManifest text symbol hours = .ok spec) :
    ∃ manifest reports, _manifestSnapshot text = .ok manifest ∧
      _reportsFor manifest symbol = .ok reports ∧ spec.symbol.value = symbol ∧
      ∀ i, (reports i).requestedStartTimeMs + regimeInterval.milliseconds ≤ spec.startTimeMs ∧
        spec.endTimeMs ≤ (reports i).requestedEndTimeMs := by
  unfold latestSpecFromManifest at h
  rw [raiseIf_bind_eq_ok] at h
  obtain ⟨manifest, hmanifest, h⟩ := bind_eq_ok.mp h.2
  obtain ⟨reports, hreports, h⟩ := bind_eq_ok.mp h
  rw [raiseIf_bind_eq_ok, not_lt] at h
  obtain ⟨hwarm, h⟩ := h
  obtain ⟨hvalid, rfl⟩ := construct_eq_ok.mp (mapError_eq_ok.mp h)
  refine ⟨manifest, reports, hmanifest, hreports, (reportsFor_eq_ok hreports _).1, ?_⟩
  have hstop := Int.ediv_mul_le (_latest reports) (Interval.milliseconds_pos primaryInterval).ne'
  intro i
  unfold _earliest at hwarm
  unfold _latest at hstop hwarm
  have hstart : (reports i).requestedStartTimeMs ≤ max (reports primaryInterval).requestedStartTimeMs
      (max (reports contextInterval).requestedStartTimeMs
        (reports regimeInterval).requestedStartTimeMs) := by
    cases i with
    | m15 => exact (le_max_left _ _).trans (le_max_right _ _)
    | h1 => exact le_max_left _ _
    | h4 => exact (le_max_right _ _).trans (le_max_right _ _)
  have hend : min (reports primaryInterval).requestedEndTimeMs
      (min (reports contextInterval).requestedEndTimeMs (reports regimeInterval).requestedEndTimeMs) ≤
        (reports i).requestedEndTimeMs := by
    cases i with
    | m15 => exact (min_le_right _ _).trans (min_le_left _ _)
    | h1 => exact min_le_left _ _
    | h4 => exact (min_le_right _ _).trans (min_le_right _ _)
  exact ⟨(Int.add_le_add_right hstart _).trans hwarm, hstop.trans hend⟩

/-- Every history of a loaded dataset covers the range of its report. -/
theorem covers_of_load (hload : loadAcceptedDataset database text spec = .ok dataset) :
    dataset.spec = spec ∧ ∃ manifest reports, _manifestSnapshot text = .ok manifest ∧
      _reportsFor manifest spec.symbol.value = .ok reports ∧
      ∀ i, Covers spec.symbol i (reports i).requestedStartTimeMs (reports i).requestedEndTimeMs
        (dataset.history i) := by
  unfold loadAcceptedDataset at hload
  obtain ⟨manifest, hmanifest, hload⟩ := bind_eq_ok.mp hload
  obtain ⟨reports, hreports, hload⟩ := bind_eq_ok.mp hload
  rw [raiseIf_bind_eq_ok, raiseIf_bind_eq_ok] at hload
  obtain ⟨primary, hprimary, hload⟩ := bind_eq_ok.mp hload.2.2
  obtain ⟨context, hcontext, hload⟩ := bind_eq_ok.mp hload
  obtain ⟨regime, hregime, hload⟩ := bind_eq_ok.mp hload
  cases hload
  refine ⟨rfl, manifest, reports, hmanifest, hreports, ?_⟩
  intro i
  obtain ⟨hsymbol, hinterval⟩ := reportsFor_eq_ok hreports i
  have hsame := Symbol.value_injective hsymbol
  rw [← hsame]
  cases i with
  | m15 =>
    have h := readRows_eq_ok hcontext
    change Covers (reports .m15).symbol (reports .m15).interval _ _ context at h
    rwa [hinterval] at h
  | h1 =>
    have h := readRows_eq_ok hprimary
    change Covers (reports .h1).symbol (reports .h1).interval _ _ primary at h
    rwa [hinterval] at h
  | h4 =>
    have h := readRows_eq_ok hregime
    change Covers (reports .h4).symbol (reports .h4).interval _ _ regime at h
    rwa [hinterval] at h

theorem warm_of_load (hspec : latestSpecFromManifest text symbol hours = .ok spec)
    (hload : loadAcceptedDataset database text spec = .ok dataset) :
    dataset.spec = spec ∧ Warm dataset := by
  obtain ⟨manifest, reports, hmanifest, hreports, rfl, hrange⟩ := latestSpec_eq_ok hspec
  obtain ⟨hsame, manifest', reports', hmanifest', hreports', hcovers⟩ := covers_of_load hload
  rw [hmanifest] at hmanifest'
  cases hmanifest'
  rw [hreports] at hreports'
  cases hreports'
  subst hsame
  exact ⟨rfl, fun i => ⟨_, _, hcovers i, hrange i⟩⟩

theorem candle?_row (c : Candle) : c.row.candle? c.isClosed = some c := by
  have hvalid : c.toFields.postInit = .ok () := c.valid
  unfold CandleRow.candle? Candle.row
  simp only [Symbol.ofText?_value, Interval.ofText?_value, Cell.int?_int, Option.bind_eq_bind,
    Option.bind_some]
  rw [construct_of_ok hvalid]
  rfl

theorem candle_row {c : Candle} (h : c.isClosed = true) : _candle c.row = .ok c := by
  have hread := candle?_row c
  have hclosed : c.row.isClosed = .int 1 := by
    unfold Candle.row
    rw [h]
    rfl
  rw [h] at hread
  unfold _candle
  rw [raiseIf_bind_eq_ok, hclosed]
  refine ⟨fun hbad => hbad.2 rfl, ?_⟩
  rw [decide_eq_true rfl, hread]
  exact raiseIf_bind_eq_ok.mpr ⟨not_not.mpr h, rfl⟩

theorem candles_rows {candles : List Candle} (h : ∀ c ∈ candles, c.isClosed = true) :
    _candles (candles.map Candle.row) = .ok candles := by
  induction candles with
  | nil => rfl
  | cons c candles ih =>
    have hrest := ih fun d hd => h d (mem_cons_of_mem _ hd)
    rw [map_cons]
    unfold _candles
    simp only [candle_row (h c mem_cons_self), ok_bind, hrest]
    rfl

/-- A database that holds the candles of every interval over the range of a report. -/
def Stores (database : CandleDatabase) (report : HealthReport)
    (candles : Interval → List Candle) : Prop :=
  database.candles = intervals.flatMap (fun i => (candles i).map Candle.row) ∧
    ∀ i, Covers report.symbol i report.requestedStartTimeMs report.requestedEndTimeMs (candles i)

/-- The rows of one interval are selected in the order of their times. -/
theorem select_of_stores (h : Stores database report candles) :
    _select database report = (candles report.interval).map Candle.row := by
  have hpart : ∀ i, ((candles i).map Candle.row).filter (fun r => r.source = dataSource ∧
      r.symbol = report.symbol.value ∧ r.interval = report.interval.value ∧
      (Cell.int report.requestedStartTimeMs).le r.openTimeMs ∧
      ¬ (Cell.int report.requestedEndTimeMs).le r.openTimeMs) =
        if i = report.interval then (candles i).map Candle.row else [] := by
    intro i
    have hcovers := h.2 i
    split
    · rename_i hi
      rw [filter_eq_self]
      intro r hr
      obtain ⟨c, hc, rfl⟩ := mem_map.mp hr
      obtain ⟨hsymbol, hinterval, -⟩ := hcovers.identity c hc
      have hmem : c.openTimeMs ∈ (candles i).map fun c => c.openTimeMs := mem_map_of_mem hc
      rw [hcovers.times, mem_timeRange i.milliseconds_pos] at hmem
      simp [Candle.row, hsymbol, hinterval, hi, Cell.le, Cell.toRat, hmem.1, hmem.2.1]
    · rename_i hi
      rw [filter_eq_nil_iff]
      intro r hr
      obtain ⟨c, hc, rfl⟩ := mem_map.mp hr
      have hinterval := (hcovers.identity c hc).2.1
      have hne : ¬ c.interval.value = report.interval.value := fun hv =>
        hi (hinterval ▸ Interval.value_injective hv)
      simp [Candle.row, hne]
  unfold _select
  rw [h.1]
  have hfilter : (intervals.flatMap fun i => (candles i).map Candle.row).filter (fun r =>
      r.source = dataSource ∧ r.symbol = report.symbol.value ∧
      r.interval = report.interval.value ∧
      (Cell.int report.requestedStartTimeMs).le r.openTimeMs ∧
      ¬ (Cell.int report.requestedEndTimeMs).le r.openTimeMs) =
        (candles report.interval).map Candle.row := by
    rw [filter_flatMap]
    simp only [intervals, flatMap_cons, flatMap_nil, hpart]
    cases report.interval <;> simp [primaryInterval, contextInterval, regimeInterval]
  rw [hfilter]
  apply Pairwise.insertionSort_eq
  rw [pairwise_map]
  have hsorted : (timeRange report.requestedStartTimeMs report.requestedEndTimeMs
      report.interval.milliseconds).Pairwise (· < ·) :=
    pairwise_timeRange report.interval.milliseconds_pos
  rw [← (h.2 report.interval).times, pairwise_map] at hsorted
  apply hsorted.imp
  intro c d hlt
  simpa [Candle.row, Cell.le, Cell.toRat] using hlt.le

theorem readRows_of_stores (h : Stores database report candles)
    (hcount : (Json.int (candles report.interval).length).same report.totalRows = true)
    (hmax : (candles report.interval).length ≤ maxLoadedRows) :
    _readRows database report = .ok (candles report.interval) := by
  have hcovers := h.2 report.interval
  have hclosed : ∀ c ∈ candles report.interval, c.isClosed = true :=
    fun c hc => (hcovers.identity c hc).2.2
  unfold _readRows
  rw [select_of_stores h, raiseIf_bind_eq_ok, length_map, not_or, not_not, not_lt,
    candles_rows hclosed, ok_bind, raiseIf_bind_eq_ok, not_not]
  exact ⟨⟨hcount, hmax⟩, hcovers.times, rfl⟩

end Loader

end TradingLab
