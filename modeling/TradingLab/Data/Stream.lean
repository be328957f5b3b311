import TradingLab.Data.Candle
import TradingLab.Store.Table

/-!
# Bounded history downloads

A range of candles is downloaded page by page. Every row must lie on the grid of
its interval inside the part that is still missing, in increasing order; the next
page starts after the last row of the one before.
-/

namespace TradingLab

structure PublicRestError where
  message : String
deriving Repr, DecidableEq

structure HistoricalDownloadError where
  message : String
deriving Repr, DecidableEq

structure NormalizationError where
  message : String
deriving Repr, DecidableEq

structure KlineRow where
  openTimeMs : ℤ
  open' : String
  high : String
  low : String
  close : String
  baseVolume : String
  closeTimeMs : ℤ
  quoteVolume : String
  tradeCount : ℤ
  reservedIsZero : Bool
deriving Repr, DecidableEq

/-- What the public client answers while a range is fetched. -/
structure BinancePublicRestClient where
  serverTime : Except PublicRestError ℤ
  klines : Symbol × Interval → (limit startTime endTime : ℤ) → Except PublicRestError (List KlineRow)

/-- The candle of a row; the server time decides whether it is closed. -/
def normalizeRestKline (pair : Symbol × Interval) (row : KlineRow) (serverTimeMs : ℤ) :
    Except NormalizationError Candle := do
  raiseIf (serverTimeMs ≤ 0) ⟨"A positive Binance server timestamp is required"⟩
  raiseIf (¬ row.reservedIsZero) ⟨"REST kline reserved field is unexpected"⟩
  let fields : Candle.Fields := {
    symbol := pair.1
    interval := pair.2
    openTimeMs := row.openTimeMs
    closeTimeMs := row.closeTimeMs
    open' := row.open'
    high := row.high
    low := row.low
    close := row.close
    baseVolume := row.baseVolume
    quoteVolume := row.quoteVolume
    tradeCount := row.tradeCount
    isClosed := row.closeTimeMs < serverTimeMs }
  (construct fields.postInit fun h => (⟨fields, h⟩ : Candle)).mapError fun _ =>
    ⟨"Kline payload violates the canonical candle contract"⟩

namespace History

def pageLimit : ℤ := 1000
def maxRangeCandles : ℤ := 100000

/-- The checks on the rows of a page; `previous` is the row before. -/
def _validatePage (duration cursor endTimeMs : ℤ) (seen : List ℤ) :
    Option ℤ → List KlineRow → Except HistoricalDownloadError Unit
  | _, [] => return
  | previous, row :: rows => do
      raiseIf (row.openTimeMs < cursor ∨ endTimeMs ≤ row.openTimeMs ∨
          row.openTimeMs % duration ≠ 0 ∨ row.closeTimeMs ≠ row.openTimeMs + duration - 1)
        ⟨"Historical candle timestamps are invalid"⟩
      raiseIf ((previous.any fun p => row.openTimeMs ≤ p) ∨ row.openTimeMs ∈ seen)
        ⟨"Historical page is duplicated or out of order"⟩
      _validatePage duration cursor endTimeMs seen (some row.openTimeMs) rows

/-- Fetch from the cursor on; every page moves it by a candle at least. -/
def _pages (client : BinancePublicRestClient) (pair : Symbol × Interval) (endTimeMs : ℤ) :
    ℕ → ℤ → List KlineRow → Except HistoricalDownloadError (List KlineRow)
  | 0, _, collected => return collected
  | n + 1, cursor, collected =>
      if endTimeMs ≤ cursor then return collected
      else
        let duration := pair.2.milliseconds
        let limit := min pageLimit ((endTimeMs - cursor) / duration)
        match client.klines pair limit cursor (endTimeMs - 1) with
        | .error _ => .error ⟨"Historical page request failed"⟩
        | .ok [] => return collected
        | .ok (row :: rows) => do
            _validatePage duration cursor endTimeMs (collected.map (·.openTimeMs)) none (row :: rows)
            let nextCursor := ((row :: rows).getLast (by simp)).openTimeMs + duration
            raiseIf (nextCursor ≤ cursor) ⟨"Historical pagination made no progress"⟩
            _pages client pair endTimeMs n nextCursor (collected ++ row :: rows)

end History

/-- Download the candles that open in `[startTimeMs, endTimeMs)`. -/
def downloadRange (client : BinancePublicRestClient) (pair : Symbol × Interval)
    (startTimeMs endTimeMs : ℤ) : Except HistoricalDownloadError (List KlineRow) := do
  raiseIf (startTimeMs ≤ 0) ⟨"start_time_ms must be a positive integer timestamp"⟩
  raiseIf (endTimeMs ≤ 0) ⟨"end_time_ms must be a positive integer timestamp"⟩
  let duration := pair.2.milliseconds
  raiseIf (endTimeMs ≤ startTimeMs ∨ startTimeMs % duration ≠ 0 ∨ endTimeMs % duration ≠ 0)
    ⟨"Historical range must be ordered and interval-aligned"⟩
  let requestedCount := (endTimeMs - startTimeMs) / duration
  raiseIf (History.maxRangeCandles < requestedCount)
    ⟨"Historical range exceeds the candle limit"⟩
  History._pages client pair endTimeMs (requestedCount.toNat + 1) startTimeMs []

/-!
## The candle store

The store keeps one row for each symbol, interval and open time. A row of a
candle that is still open may be replaced; a closed candle never changes.
-/

structure StorageError where
  message : String
deriving Repr, DecidableEq

inductive WriteResult where
  | inserted
  | unchanged
  | updated
  | finalized
deriving Repr, DecidableEq

def Candle.pair (c : Candle) : Symbol × Interval := (c.symbol, c.interval)

def Candle.key (c : Candle) : (Symbol × Interval) × ℤ := (c.pair, c.openTimeMs)

/-- The rows of the candle table. -/
abbrev CandleStore := Table Candle.key

namespace CandleStore

def write (candle : Candle) : Method CandleStore StorageError WriteResult := do
  let existing ← Method.read (·.find? candle.key)
  match existing with
  | none =>
      Method.modify (·.put candle)
      return .inserted
  | some row =>
      if row = candle then return .unchanged
      else if row.isClosed then
        Method.check (.error ⟨"A closed candle conflicts with stored data"⟩)
      else
        Method.modify (·.put candle)
        return if candle.isClosed then .finalized else .updated

/-- The store holds the closed candle of a pair at an open time. -/
def HoldsClosed (s : CandleStore) (pair : Symbol × Interval) (openTimeMs : ℤ) : Prop :=
  ∃ c, s.find? (pair, openTimeMs) = some c ∧ c.isClosed = true

theorem write_cases (candle : Candle) (s : CandleStore) :
    (∃ e, (write candle).call s = (.error e, s)) ∨
    (∃ r, (write candle).call s = (.ok r, s.put candle) ∧
      ∀ row, s.find? candle.key = some row → row.isClosed = true → False) ∨
    ((write candle).call s = (.ok .unchanged, s) ∧ s.find? candle.key = some candle) := by
  unfold write
  rw [Method.call_read_bind]
  cases h : s.find? candle.key with
  | none => exact .inr (.inl ⟨_, rfl, nofun⟩)
  | some row =>
    simp only
    split
    · rename_i heq
      subst heq
      exact .inr (.inr ⟨rfl, rfl⟩)
    · split
      · exact .inl ⟨_, rfl⟩
      · rename_i hopen
        refine .inr (.inl ⟨_, rfl, ?_⟩)
        rintro row' ⟨⟩ hc
        exact hopen hc

theorem holdsClosed_write {candle : Candle} {s t : CandleStore} {r : WriteResult}
    (h : (write candle).call s = (.ok r, t)) (pair : Symbol × Interval) (o : ℤ) :
    HoldsClosed t pair o ↔
      HoldsClosed s pair o ∨ (candle.key = (pair, o) ∧ candle.isClosed = true) := by
  rcases write_cases candle s with ⟨e, he⟩ | ⟨r', hr, hopen⟩ | ⟨hr, hsame⟩
  · rw [he] at h
    cases h
  · rw [hr] at h
    cases h
    unfold HoldsClosed
    by_cases hk : candle.key = (pair, o)
    · rw [← hk, Table.find?_put_self]
      constructor
      · rintro ⟨c, ⟨⟩, hc⟩
        exact .inr ⟨rfl, hc⟩
      · rintro (⟨c, hc, hcl⟩ | ⟨-, hc⟩)
        · exact (hopen c hc hcl).elim
        · exact ⟨candle, rfl, hc⟩
    · rw [Table.find?_put_ne hk]
      simp [hk]
  · rw [hr] at h
    cases h
    constructor
    · exact .inl
    · rintro (hs | ⟨hk, hc⟩)
      · exact hs
      · exact ⟨candle, by rw [← hk]; exact hsame, hc⟩

theorem write_error {candle : Candle} {s t : CandleStore} {e : StorageError}
    (h : (write candle).call s = (.error e, t)) : t = s := by
  rcases write_cases candle s with ⟨e', he⟩ | ⟨r', hr, -⟩ | ⟨hr, -⟩
  · rw [he] at h
    cases h
    rfl
  · rw [hr] at h
    cases h
  · rw [hr] at h
    cases h

end CandleStore

/-!
## The public kline stream

The runner stores what the connection delivers and remembers the open time of the
last candle of every pair. After a lost connection it first fetches the closed
candles since then and only afterwards connects again.
-/

structure StreamError where
  message : String
deriving Repr, DecidableEq

/-- A message after decoding. -/
inductive StreamMessage where
  | kline (candle : Candle)
  | serverShutdown
  | invalid (error : StreamError)
deriving DecidableEq

inductive Interrupt where
  | stream (error : StreamError)
  | reconnect
deriving Repr, DecidableEq

def maxStreams : ℕ := 6
def maxBackfillCandles : ℤ := 1000

structure PublicKlineStream where
  subscriptions : List (Symbol × Interval)
  maxReconnects : ℤ
  store : CandleStore
  lastOpen : Table (Prod.fst : (Symbol × Interval) × ℤ → Symbol × Interval)

namespace PublicKlineStream

/-- The checks of the constructor. -/
def init (subscriptions : List (Symbol × Interval)) (store : CandleStore) (maxReconnects : ℤ) :
    Except StreamError PublicKlineStream := do
  raiseIf (subscriptions = [] ∨ maxStreams < subscriptions.length)
    ⟨"Stream subscription count is invalid"⟩
  raiseIf (¬ subscriptions.Nodup) ⟨"Duplicate stream subscription"⟩
  raiseIf (¬ (0 ≤ maxReconnects ∧ maxReconnects ≤ 5)) ⟨"Stream limits are invalid"⟩
  return { subscriptions, maxReconnects, store, lastOpen := .empty }

/-- The open time of the last candle of a pair. -/
def last (s : PublicKlineStream) (pair : Symbol × Interval) : Option ℤ :=
  (s.lastOpen.find? pair).map Prod.snd

def setLast (s : PublicKlineStream) (pair : Symbol × Interval) (openTimeMs : ℤ) :
    PublicKlineStream := { s with lastOpen := s.lastOpen.put (pair, openTimeMs) }

/-- Write into the store of the runner. -/
def writeStore {ε : Type} (candle : Candle) (error : ε) : Method PublicKlineStream ε WriteResult :=
  Method.zoom store (fun t s => { s with store := t }) (fun _ => error) (CandleStore.write candle)

def _consume : StreamMessage → Method PublicKlineStream Interrupt Unit
  | .invalid error => Method.check (.error (.stream error))
  | .serverShutdown => Method.check (.error .reconnect)
  | .kline candle => do
      let subscriptions ← Method.read subscriptions
      Method.check (raiseIf (candle.pair ∉ subscriptions)
        (.stream ⟨"Stream returned an unsubscribed candle"⟩))
      let previous ← Method.read (·.last candle.pair)
      Method.check (raiseIf (previous.any fun p => candle.openTimeMs < p)
        (.stream ⟨"Stream candle arrived out of order"⟩))
      let _ ← writeStore candle (Interrupt.stream ⟨"Stream candle could not be stored safely"⟩)
      Method.modify (·.setLast candle.pair candle.openTimeMs)

def backfillFailed : StreamError := ⟨"Disconnect backfill failed safely"⟩

/-- Store the downloaded rows of a pair, in order. -/
def _storeRows (pair : Symbol × Interval) (serverTimeMs : ℤ) :
    List KlineRow → Method PublicKlineStream StreamError ℕ
  | [] => return 0
  | row :: rows => do
      let candle ← Method.check ((normalizeRestKline pair row serverTimeMs).mapError fun _ =>
        backfillFailed)
      let _ ← writeStore candle backfillFailed
      Method.modify (·.setLast pair candle.openTimeMs)
      let total ← _storeRows pair serverTimeMs rows
      return total + 1

/-- Fetch what closed since the last candle of one pair. -/
def _backfillPair (client : BinancePublicRestClient) (serverTimeMs : ℤ)
    (pair : Symbol × Interval) : Method PublicKlineStream StreamError ℕ := do
  let start? ← Method.read (·.last pair)
  match start? with
  | none => return 0
  | some start =>
      let duration := pair.2.milliseconds
      let end' := serverTimeMs / duration * duration
      if end' ≤ start then return 0
      else
        Method.check (raiseIf (maxBackfillCandles < (end' - start) / duration)
          ⟨"Disconnect backfill exceeds the fixed limit"⟩)
        let rows ← Method.check ((downloadRange client pair start end').mapError fun _ =>
          backfillFailed)
        _storeRows pair serverTimeMs rows

def _backfillPairs (client : BinancePublicRestClient) (serverTimeMs : ℤ) :
    List (Symbol × Interval) → Method PublicKlineStream StreamError ℕ
  | [] => return 0
  | pair :: pairs => do
      let n ← _backfillPair client serverTimeMs pair
      let m ← _backfillPairs client serverTimeMs pairs
      return n + m

def _backfill (client : BinancePublicRestClient) : Method PublicKlineStream StreamError ℕ := do
  let empty ← Method.read fun s => s.lastOpen.rows.isEmpty
  if empty then return 0
  else
    let serverTimeMs ← Method.check (client.serverTime.mapError fun _ => backfillFailed)
    let subscriptions ← Method.read subscriptions
    _backfillPairs client serverTimeMs subscriptions

end PublicKlineStream

end TradingLab
