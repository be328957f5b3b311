import TradingLab.Data.Stream
import TradingLab.Json.Basic

/-!
# Downloads page by page

The loop of a download over an arbitrary client: a page is any list of JSON
values, and nothing is known of it before its rows are checked. The cursor moves
past the last row of every page, so there are no more rounds than candles in the
range.
-/

namespace TradingLab

open List

namespace Download

/-- The answers of a client. The cursor never returns to a value, so no client is asked the same
twice and a function of the request is general enough. -/
structure KlineClient where
  klines : Symbol × Interval → (limit startTime endTime : ℤ) → Except PublicRestError (List Json)

structure HistoricalBatch where
  pair : Symbol × Interval
  startTimeMs : ℤ
  endTimeMs : ℤ
  pages : ℕ
  rows : List (List Json)
  skippedKnownRows : ℕ
deriving Repr, DecidableEq

structure Request where
  pair : Symbol × Interval
  startTimeMs : ℤ
  endTimeMs : ℤ
  pageLimit : ℤ := 1000
  knownOpenTimes : List ℤ := []
deriving Repr, DecidableEq

def Request.duration (r : Request) : ℤ := r.pair.2.milliseconds

structure Progress where
  cursor : ℤ
  pages : ℕ
  skipped : ℕ
  seenRemote : List ℤ
  collected : List (List Json)
deriving Repr, DecidableEq

/-- A time is read only from an integer. -/
def _int : Json → Option ℤ
  | .int n => some n
  | _ => none

/-- The open time of a row and its values, if the row belongs to the rest of the range. -/
def _readRow (r : Request) (cursor : ℤ) (row : Json) :
    Except HistoricalDownloadError (ℤ × List Json) :=
  match row with
  | .array items => do
      let values := items.toList
      raiseIf (values.length ≠ 12) ⟨"Historical page contains an invalid row"⟩
      match values[0]?.bind _int, values[6]?.bind _int with
      | some openTime, some closeTime => do
          raiseIf (openTime < cursor ∨ r.endTimeMs ≤ openTime ∨ openTime % r.duration ≠ 0 ∨
              closeTime ≠ openTime + r.duration - 1)
            ⟨"Historical candle timestamps are invalid"⟩
          return (openTime, values)
      | _, _ => .error ⟨"Historical candle timestamps are invalid"⟩
  | _ => .error ⟨"Historical page contains an invalid row"⟩

/-- The rows of a page; `previous` is the open time of the row before. -/
def _readRows (r : Request) : Option ℤ → Progress → List Json →
    Except HistoricalDownloadError (Option ℤ × Progress)
  | previous, s, [] => return (previous, s)
  | previous, s, row :: rows => do
      let (openTime, values) ← _readRow r s.cursor row
      raiseIf ((previous.any fun p => openTime ≤ p) ∨ openTime ∈ s.seenRemote)
        ⟨"Historical page is duplicated or out of order"⟩
      let s := { s with seenRemote := s.seenRemote ++ [openTime] }
      if openTime ∈ r.knownOpenTimes then
        _readRows r (some openTime) { s with skipped := s.skipped + 1 } rows
      else _readRows r (some openTime) { s with collected := s.collected ++ [values] } rows

inductive Round where
  /-- An empty page ended the loop. -/
  | finished (s : Progress)
  | goesOn (s : Progress)
deriving Repr, DecidableEq

/-- One round of the loop. -/
def _round (client : KlineClient) (r : Request) (s : Progress) :
    Except HistoricalDownloadError Round :=
  let remaining := (r.endTimeMs - s.cursor) / r.duration
  match client.klines r.pair (min r.pageLimit remaining) s.cursor (r.endTimeMs - 1) with
  | .error _ => .error ⟨"Historical page request failed"⟩
  | .ok page => do
      let s := { s with pages := s.pages + 1 }
      if page = [] then return .finished s
      else
        let (last, s) ← _readRows r none s page
        let nextCursor := last.getD 0 + r.duration
        raiseIf (nextCursor ≤ s.cursor) ⟨"Historical pagination made no progress"⟩
        return .goesOn { s with cursor := nextCursor }

/-- The loop, for a number of rounds. -/
def _loop (client : KlineClient) (r : Request) :
    ℕ → Progress → Option (Except HistoricalDownloadError Progress)
  | 0, s => if r.endTimeMs ≤ s.cursor then some (.ok s) else none
  | n + 1, s =>
      if r.endTimeMs ≤ s.cursor then some (.ok s)
      else match _round client r s with
        | .error e => some (.error e)
        | .ok (.finished s) => some (.ok s)
        | .ok (.goesOn s) => _loop client r n s

def Request.validate (r : Request) : Except HistoricalDownloadError Unit := do
  raiseIf (r.startTimeMs ≤ 0) ⟨"start_time_ms must be a positive integer timestamp"⟩
  raiseIf (r.endTimeMs ≤ 0) ⟨"end_time_ms must be a positive integer timestamp"⟩
  raiseIf (r.endTimeMs ≤ r.startTimeMs ∨ r.startTimeMs % r.duration ≠ 0 ∨
      r.endTimeMs % r.duration ≠ 0)
    ⟨"Historical range must be ordered and interval-aligned"⟩
  let requestedCount := (r.endTimeMs - r.startTimeMs) / r.duration
  raiseIf (History.maxRangeCandles < requestedCount)
    ⟨"Historical range exceeds the candle limit"⟩
  raiseIf (¬ (1 ≤ r.pageLimit ∧ r.pageLimit ≤ 1000)) ⟨"page_limit must be between 1 and 1000"⟩
  raiseIf (∃ value ∈ r.knownOpenTimes,
      value < r.startTimeMs ∨ r.endTimeMs ≤ value ∨ value % r.duration ≠ 0)
    ⟨"Known candle timestamps are invalid for the range"⟩

def Progress.start (r : Request) : Progress := ⟨r.startTimeMs, 0, 0, [], []⟩

def Request.batch (r : Request) (s : Progress) : HistoricalBatch :=
  ⟨r.pair, r.startTimeMs, r.endTimeMs, s.pages, s.collected, s.skipped⟩

/-- The result of `download_range` if its loop ends within a number of rounds. -/
def downloadRange (client : KlineClient) (r : Request) (rounds : ℕ) :
    Option (Except HistoricalDownloadError HistoricalBatch) :=
  match r.validate with
  | .error e => some (.error e)
  | .ok () => (_loop client r rounds (.start r)).map fun result => result.map r.batch

variable {r : Request} {cursor : ℤ}

/-- The values of a kline, with the open time they state. -/
structure IsKline (duration : ℤ) (x : ℤ × List Json) : Prop where
  length : x.2.length = 12
  openTime : x.2[0]? = some (.int x.1)
  closeTime : x.2[6]? = some (.int (x.1 + duration - 1))
  aligned : x.1 % duration = 0

structure IsRow (r : Request) (cursor : ℤ) (x : ℤ × List Json) : Prop
    extends IsKline r.duration x where
  lower : cursor ≤ x.1
  upper : x.1 < r.endTimeMs

theorem _int_eq_some {v : Option Json} {n : ℤ} : v.bind _int = some n ↔ v = some (.int n) := by
  cases v with
  | none => simp
  | some v =>
    cases v with
    | int m => simp [_int]
    | _ => simp [_int]

theorem ofList_toList : ∀ items : JsonItems, JsonItems.ofList items.toList = items
  | .nil => rfl
  | .cons _ xs => by rw [JsonItems.toList, JsonItems.ofList, ofList_toList xs]

variable {x : ℤ × List Json} {page : List Json}

variable {row : Json} {s : Progress} {previous : Option ℤ} {read : List (ℤ × List Json)}

theorem _readRow_eq_ok :
    _readRow r cursor row = .ok x ↔ row = .list x.2 ∧ IsRow r cursor x := by
  constructor
  · intro h
    unfold _readRow at h
    split at h
    · rename_i items
      rw [raiseIf_bind_eq_ok, not_not] at h
      obtain ⟨hlen, h⟩ := h
      split at h
      · rename_i openTime closeTime ho hc
        rw [raiseIf_bind_eq_ok] at h
        simp only [not_or, not_lt, not_le, not_not] at h
        obtain ⟨⟨hlow, hup, hal, hclose⟩, h⟩ := h
        cases h
        refine ⟨?_, ⟨hlen, _int_eq_some.mp ho, ?_, hal⟩, hlow, hup⟩
        · rw [Json.list, ofList_toList]
        · rw [← hclose]
          exact _int_eq_some.mp hc
      · cases h
    · cases h
  · rintro ⟨rfl, h⟩
    obtain ⟨t, values⟩ := x
    unfold _readRow Json.list
    simp only [JsonItems.toList_ofList]
    rw [raiseIf_neg (not_not.mpr h.length), ok_bind, _int_eq_some.mpr h.openTime,
      _int_eq_some.mpr h.closeTime]
    simp only
    rw [raiseIf_neg, ok_bind]
    · rfl
    · have h1 := h.lower
      have h2 := h.upper
      have h3 := h.aligned
      simp only at h1 h2 h3
      simp [h1, h2, h3]

/-- The loop variables after some rows were read. -/
def Progress.absorb (r : Request) (s : Progress) (read : List (ℤ × List Json)) : Progress :=
  { s with
    skipped := s.skipped + (read.filter fun x => x.1 ∈ r.knownOpenTimes).length
    seenRemote := s.seenRemote ++ read.map Prod.fst
    collected := s.collected ++ (read.filter fun x => x.1 ∉ r.knownOpenTimes).map Prod.snd }

/-- A page is read exactly when its rows belong to the rest of the range, in increasing order. -/
structure Reads (r : Request) (s : Progress) (previous : Option ℤ) (page : List Json)
    (read : List (ℤ × List Json)) : Prop where
  page_eq : page = read.map fun x => .list x.2
  rows : ∀ x ∈ read, IsRow r s.cursor x
  increasing : (previous.toList ++ read.map Prod.fst).Pairwise (· < ·)
  fresh : ∀ x ∈ read, x.1 ∉ s.seenRemote

theorem absorb_cons (s : Progress) (x : ℤ × List Json) (read : List (ℤ × List Json)) :
    s.absorb r (x :: read) = (s.absorb r [x]).absorb r read := by
  unfold Progress.absorb
  by_cases h : x.1 ∈ r.knownOpenTimes
  · simp [h, Nat.add_assoc, Nat.add_comm]
  · simp [h]

/-- One row is absorbed as the source does it. -/
theorem absorb_singleton (s : Progress) (x : ℤ × List Json) :
    s.absorb r [x] = if x.1 ∈ r.knownOpenTimes then
      { s with seenRemote := s.seenRemote ++ [x.1], skipped := s.skipped + 1 }
    else { s with seenRemote := s.seenRemote ++ [x.1], collected := s.collected ++ [x.2] } := by
  unfold Progress.absorb
  split_ifs with h <;> simp [h]

theorem _readRows_cons (previous : Option ℤ) (s : Progress) (row : Json) (rows : List Json) :
    _readRows r previous s (row :: rows) = (do
      let x ← _readRow r s.cursor row
      raiseIf ((previous.any fun p => x.1 ≤ p) ∨ x.1 ∈ s.seenRemote)
        ⟨"Historical page is duplicated or out of order"⟩
      _readRows r (some x.1) (s.absorb r [x]) rows) := by
  rw [_readRows]
  congr 1
  funext x
  obtain ⟨t, values⟩ := x
  dsimp only
  congr 1
  funext u
  rw [absorb_singleton]
  split_ifs <;> rfl

/-- One more row in front. -/
theorem Reads.cons (h : Reads r (s.absorb r [x]) (some x.1) page read)
    (hx : IsRow r s.cursor x) (hprev : ¬ previous.any (fun p => x.1 ≤ p) = true)
    (hseen : x.1 ∉ s.seenRemote) : Reads r s previous (.list x.2 :: page) (x :: read) where
  page_eq := by rw [h.page_eq, map_cons]
  rows := by
    intro y hy
    rcases mem_cons.mp hy with rfl | hy
    · exact hx
    · exact h.rows y hy
  increasing := by
    have hinc : (x.1 :: read.map Prod.fst).Pairwise (· < ·) := h.increasing
    cases previous with
    | none => exact hinc
    | some p =>
      have hp : p < x.1 := by simpa using hprev
      refine pairwise_cons.mpr ⟨?_, hinc⟩
      intro t ht
      rcases mem_cons.mp ht with rfl | ht
      · exact hp
      · exact hp.trans ((pairwise_cons.mp hinc).1 t ht)
  fresh := by
    intro y hy
    rcases mem_cons.mp hy with rfl | hy
    · exact hseen
    · have := h.fresh y hy
      simp only [Progress.absorb, map_cons, map_nil, mem_append, not_or] at this
      exact this.1

theorem Reads.of_cons (h : Reads r s previous (row :: page) (x :: read)) :
    row = .list x.2 ∧ IsRow r s.cursor x ∧ ¬ previous.any (fun p => x.1 ≤ p) = true ∧
      x.1 ∉ s.seenRemote ∧ Reads r (s.absorb r [x]) (some x.1) page read := by
  obtain ⟨hpage, hrows, hinc, hfresh⟩ := h
  rw [map_cons, List.cons.injEq] at hpage
  have htail : (x.1 :: read.map Prod.fst).Pairwise (· < ·) := (pairwise_append.mp hinc).2.1
  refine ⟨hpage.1, hrows x (by simp), ?_, hfresh x (by simp), hpage.2, ?_, htail, ?_⟩
  · cases previous with
    | none => simp
    | some p =>
      have := (pairwise_append.mp hinc).2.2 p (by simp) x.1 (by simp)
      simpa using this
  · intro y hy
    exact hrows y (mem_cons_of_mem _ hy)
  · intro y hy
    have hlt := (pairwise_cons.mp htail).1 y.1 (mem_map_of_mem hy)
    simp only [Progress.absorb, map_cons, map_nil, mem_append,
      mem_singleton, not_or]
    exact ⟨hfresh y (mem_cons_of_mem _ hy), hlt.ne'⟩

theorem _readRows_eq_ok : ∀ {previous last : Option ℤ} {s s' : Progress},
    _readRows r previous s page = .ok (last, s') ↔
      ∃ read, Reads r s previous page read ∧ s' = s.absorb r read ∧
        last = (read.map Prod.fst).getLast?.or previous := by
  induction page with
  | nil =>
    intro previous last s s'
    constructor
    · intro h
      cases h
      refine ⟨[], ⟨rfl, by simp, ?_, by simp⟩, by simp [Progress.absorb], rfl⟩
      cases previous <;> simp
    · rintro ⟨read, hread, rfl, rfl⟩
      have hnil : read = [] := by simpa using hread.page_eq
      subst hnil
      simp [_readRows, Progress.absorb, pure, Except.pure]
  | cons row rows ih =>
    intro previous last s s'
    rw [_readRows_cons, bind_eq_ok]
    constructor
    · rintro ⟨x, hx, h⟩
      rw [raiseIf_bind_eq_ok, not_or] at h
      obtain ⟨⟨hprev, hseen⟩, h⟩ := h
      obtain ⟨rfl, hrow⟩ := _readRow_eq_ok.mp hx
      obtain ⟨read, hread, rfl, rfl⟩ := ih.mp h
      refine ⟨x :: read, hread.cons hrow hprev hseen, (absorb_cons s x read).symm, ?_⟩
      rw [map_cons, getLast?_cons]
      cases (read.map Prod.fst).getLast? <;> simp
    · rintro ⟨read, hread, rfl, rfl⟩
      cases read with
      | nil => cases hread.page_eq
      | cons x read =>
        obtain ⟨rfl, hrow, hprev, hseen, hrest⟩ := hread.of_cons
        refine ⟨x, _readRow_eq_ok.mpr ⟨rfl, hrow⟩, ?_⟩
        rw [raiseIf_bind_eq_ok, not_or]
        refine ⟨⟨hprev, hseen⟩, ih.mpr ⟨read, hrest, absorb_cons s x read, ?_⟩⟩
        rw [map_cons, getLast?_cons]
        cases (read.map Prod.fst).getLast? <;> simp

end Download

end TradingLab
