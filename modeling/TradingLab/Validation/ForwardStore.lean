import TradingLab.Backtest.Loader

/-!
# The forward window and its candle store

The window starts at a sealed time. The store of the window holds rows of
candles and hands out a range of them only when every row is a closed candle
that opened inside the window. An ingestion snapshot lists what was collected
for each market and interval, with the end of each requested range.
-/

namespace TradingLab

def forwardWindowStartMs : ℤ := 1790035200000

namespace CandidateFreeze

def initialEquityQuote : String := "10000"
def feeBps : String := "10"
def slippageBps : String := "5"

end CandidateFreeze

structure WindowSealError where
  message : String
deriving Repr, DecidableEq

/-- The identity check of a forward observation, for what a candle does not fix by itself. -/
def observationIdentity (c : Candle) : Except WindowSealError Unit :=
  raiseIf (¬ c.isClosed ∨ c.openTimeMs < forwardWindowStartMs ∨
      c.openTimeMs % c.interval.milliseconds ≠ 0 ∨
      c.closeTimeMs ≠ c.openTimeMs + c.interval.milliseconds - 1)
    ⟨"Forward observation identity violates sealed P10 window"⟩

structure ForwardStoreError where
  message : String
deriving Repr, DecidableEq

/-- `bool` of a column. -/
def Cell.truthy : Cell → Bool
  | int n => n ≠ 0
  | real value => value ≠ 0
  | infinite _ => true
  | text s => s ≠ ""

/-- The rows of one market and interval over a range, in the order of their open times. -/
def CandleDatabase.rowsBetween (database : CandleDatabase) (symbol : Symbol) (interval : Interval)
    (startTimeMs endTimeMs : ℤ) : List CandleRow :=
  (database.candles.filter fun r => r.source = dataSource ∧ r.symbol = symbol.value ∧
    r.interval = interval.value ∧ (Cell.int startTimeMs).le r.openTimeMs ∧
    ¬ (Cell.int endTimeMs).le r.openTimeMs).insertionSort fun r s => r.openTimeMs.le s.openTimeMs

structure ForwardCandleStore where
  database : CandleDatabase

namespace ForwardCandleStore

def _validateRange (interval : Interval) (startTimeMs endTimeMs : ℤ) :
    Except ForwardStoreError Unit := do
  raiseIf (startTimeMs < forwardWindowStartMs ∨ endTimeMs ≤ startTimeMs)
    ⟨"P10 forward store range is outside the seal"⟩
  let duration := interval.milliseconds
  raiseIf (startTimeMs % duration ≠ 0 ∨ endTimeMs % duration ≠ 0)
    ⟨"P10 forward store range is not UTC aligned"⟩

def _validateCandle (c : Candle) : Except ForwardStoreError Unit := do
  raiseIf (¬ c.isClosed) ⟨"P10 store accepts only closed canonical candles"⟩
  (observationIdentity c).mapError fun _ =>
    ⟨"Candle identity violates the sealed P10 window"⟩

/-- The candles of the rows, each built by its constructor. -/
def _read : List CandleRow → Except ForwardStoreError (List Candle)
  | [] => return []
  | row :: rows =>
      match row.candle? row.isClosed.truthy with
      | none => .error ⟨"Cannot read P10 candle range"⟩
      | some candle => do
          let candles ← _read rows
          return candle :: candles

def _validateAll : List Candle → Except ForwardStoreError Unit
  | [] => return ()
  | candle :: candles => do
      _validateCandle candle
      _validateAll candles

def candlesBetween (store : ForwardCandleStore) (symbol : Symbol) (interval : Interval)
    (startTimeMs endTimeMs : ℤ) : Except ForwardStoreError (List Candle) := do
  _validateRange interval startTimeMs endTimeMs
  let values ← _read (store.database.rowsBetween symbol interval startTimeMs endTimeMs)
  _validateAll values
  return values

end ForwardCandleStore

structure ForwardIngestionError where
  message : String
deriving Repr, DecidableEq

namespace ForwardDatasetEvidence

structure Fields where
  symbol : Symbol
  interval : Interval
  requestedStartTimeMs : ℤ
  requestedEndTimeMs : ℤ
  serverTimeMs : ℤ
  totalRows : ℤ
  firstOpenTimeMs : ℤ
  lastOpenTimeMs : ℤ
  datasetSha256 : String
  healthSha256 : String
deriving DecidableEq

def Fields.postInit (e : Fields) : Except ForwardIngestionError Unit :=
  let duration := e.interval.milliseconds
  raiseIf (e.requestedStartTimeMs ≠ forwardWindowStartMs ∨
      e.requestedEndTimeMs ≤ e.requestedStartTimeMs ∨
      e.requestedStartTimeMs % duration ≠ 0 ∨ e.requestedEndTimeMs % duration ≠ 0 ∨
      e.serverTimeMs < e.requestedEndTimeMs ∨
      e.totalRows ≠ (e.requestedEndTimeMs - e.requestedStartTimeMs) / duration ∨
      e.firstOpenTimeMs ≠ e.requestedStartTimeMs ∨
      e.lastOpenTimeMs ≠ e.requestedEndTimeMs - duration ∨
      ¬ Sha256.isHexDigest e.datasetSha256 ∨ ¬ Sha256.isHexDigest e.healthSha256)
    ⟨"Forward dataset evidence is inconsistent or incomplete"⟩

end ForwardDatasetEvidence

structure ForwardDatasetEvidence extends ForwardDatasetEvidence.Fields where
  valid : toFields.postInit = .ok ()
deriving DecidableEq

namespace ForwardIngestionSnapshot

structure Fields where
  generatedAtMs : ℤ
  datasets : List ForwardDatasetEvidence
deriving DecidableEq

/-- The markets and intervals of the window, in the order in which they are collected. -/
def expectedPairs : List (Symbol × Interval) :=
  Symbol.all.flatMap fun symbol => Interval.all.map fun interval => (symbol, interval)

def Fields.postInit (s : Fields) : Except ForwardIngestionError Unit :=
  raiseIf (s.generatedAtMs ≤ forwardWindowStartMs ∨
      (s.datasets.map fun e => (e.symbol, e.interval)) ≠ expectedPairs ∨
      ∃ e ∈ s.datasets, e.serverTimeMs ≠ s.generatedAtMs)
    ⟨"Forward ingestion snapshot violates P10-004 policy"⟩

end ForwardIngestionSnapshot

/-- The fields of a snapshot that can differ between two accepted ones. -/
structure ForwardIngestionSnapshot extends ForwardIngestionSnapshot.Fields where
  valid : toFields.postInit = .ok ()
deriving DecidableEq

def _datasetDigest (candles : List Candle) : String :=
  (Json.list (candles.map Candle.asRecord)).sha256

namespace ForwardCandleStore

variable {store : ForwardCandleStore} {symbol : Symbol} {interval : Interval} {start stop : ℤ}
  {candles : List Candle}

theorem validateAll_eq_ok : _validateAll candles = .ok () ↔
    ∀ c ∈ candles, _validateCandle c = .ok () := by
  induction candles with
  | nil => simp [_validateAll, pure, Except.pure]
  | cons c candles ih =>
    unfold _validateAll
    rw [unit_bind_eq_ok, ih, List.forall_mem_cons]

theorem read_rows (h : ∀ c ∈ candles, c.isClosed = true) :
    _read (candles.map Candle.row) = .ok candles := by
  induction candles with
  | nil => rfl
  | cons c candles ih =>
    have hclosed := h c List.mem_cons_self
    have hrow : c.row.candle? c.row.isClosed.truthy = some c := by
      have htruthy : c.row.isClosed.truthy = c.isClosed := by
        unfold Candle.row
        rw [hclosed]
        rfl
      rw [htruthy]
      exact Loader.candle?_row c
    rw [List.map_cons]
    unfold _read
    rw [hrow]
    dsimp only
    rw [ih fun d hd => h d (List.mem_cons_of_mem c hd), ok_bind]
    rfl

theorem validateCandle_of_closed {c : Candle} (hclosed : c.isClosed = true)
    (hopen : forwardWindowStartMs ≤ c.openTimeMs) : _validateCandle c = .ok () := by
  obtain ⟨-, haligned, hclose, -⟩ := c.facts
  unfold _validateCandle observationIdentity
  rw [raiseIf_bind_eq_ok]
  refine ⟨not_not.mpr hclosed, mapError_eq_ok.mpr ?_⟩
  rw [raiseIf_eq_ok, hclosed, haligned, hclose]
  simpa using hopen

theorem candlesBetween_of_rows
    (hrows : store.database.rowsBetween symbol interval start stop = candles.map Candle.row)
    (hstart : forwardWindowStartMs ≤ start) (hlt : start < stop)
    (hstartAligned : start % interval.milliseconds = 0)
    (hstopAligned : stop % interval.milliseconds = 0)
    (hclosed : ∀ c ∈ candles, c.isClosed = true ∧ forwardWindowStartMs ≤ c.openTimeMs) :
    store.candlesBetween symbol interval start stop = .ok candles := by
  have hrange : _validateRange interval start stop = .ok () := by
    unfold _validateRange
    rw [raiseIf_bind_eq_ok, raiseIf_eq_ok]
    omega
  have hvalid : _validateAll candles = .ok () := validateAll_eq_ok.mpr fun c hc =>
    validateCandle_of_closed (hclosed c hc).1 (hclosed c hc).2
  unfold candlesBetween
  rw [hrange, ok_bind, hrows, read_rows fun c hc => (hclosed c hc).1, ok_bind, hvalid, ok_bind]
  rfl

end ForwardCandleStore

end TradingLab
