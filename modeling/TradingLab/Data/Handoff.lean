import TradingLab.Data.Stream

/-!
# The exchange and the stream runner

The exchange closes one candle of every interval after the other. While a
connection is open it delivers the closings and any number of updates of the
candle that is forming; what closes while no connection is open is not delivered
later. Its history serves the candles that are closed.

A step of the world is anything that can happen next: time passes, something is
delivered, the runner takes a message, backfills, connects, or loses the
connection.
-/

namespace TradingLab

/-- The closed candles of every pair, numbered by their open times. -/
structure Exchange where
  candle : Symbol × Interval → ℕ → Candle
  pair_eq : ∀ p k, (candle p k).pair = p
  open_eq : ∀ p k, (candle p k).openTimeMs = k * p.2.milliseconds
  closed : ∀ p k, (candle p k).isClosed = true

def closedCount (p : Symbol × Interval) (t : ℤ) : ℕ := (t / p.2.milliseconds).toNat

theorem closedCount_mono (p : Symbol × Interval) {s t : ℤ} (h : s ≤ t) :
    closedCount p s ≤ closedCount p t :=
  Int.toNat_le_toNat (Int.ediv_le_ediv p.2.milliseconds_pos h)

theorem lt_closedCount_iff {p : Symbol × Interval} {t : ℤ} {k : ℕ} :
    k < closedCount p t ↔ (k + 1) * p.2.milliseconds ≤ t := by
  rw [closedCount, Int.lt_toNat, ← Int.add_one_le_iff, Int.le_ediv_iff_mul_le p.2.milliseconds_pos]

def KlineRow.ofCandle (c : Candle) : KlineRow where
  openTimeMs := c.openTimeMs
  open' := c.open'
  high := c.high
  low := c.low
  close := c.close
  baseVolume := c.baseVolume
  closeTimeMs := c.closeTimeMs
  quoteVolume := c.quoteVolume
  tradeCount := c.tradeCount
  reservedIsZero := true

namespace Exchange
variable (x : Exchange)

def row (p : Symbol × Interval) (k : ℕ) : KlineRow := .ofCandle (x.candle p k)

/-- The history as it is served at a time: the first closed candles of the range. -/
def klines (t : ℤ) (p : Symbol × Interval) (limit startTime endTime : ℤ) : List KlineRow :=
  (((List.range (closedCount p t)).filter fun k : ℕ =>
    startTime ≤ k * p.2.milliseconds ∧ k * p.2.milliseconds ≤ endTime).take limit.toNat).map (x.row p)

/-- A client that asks the exchange between two times; any request of it may fail. -/
structure Serves (client : BinancePublicRestClient) (s t : ℤ) : Prop where
  serverTime : ∀ time, client.serverTime = .ok time → time = s
  klines : ∀ p limit startTime endTime rows, client.klines p limit startTime endTime = .ok rows →
    ∃ u, s ≤ u ∧ u ≤ t ∧ rows = x.klines u p limit startTime endTime

/-- The candles of the subscribed pairs that close between two times, in any order that keeps
the order of each pair. -/
def Closings (subscriptions : List (Symbol × Interval)) (s t : ℤ) (news : List Candle) : Prop :=
  (∀ c ∈ news, c.pair ∈ subscriptions) ∧
  ∀ p ∈ subscriptions, news.filter (fun c => c.pair = p) =
    (List.range' (closedCount p s) (closedCount p t - closedCount p s)).map (x.candle p)

end Exchange

inductive StreamPhase where
  /-- At the top of the loop. -/
  | idle
  /-- About to connect; after a backfill, with the server time it read. -/
  | ready (serverTimeMs : Option ℤ)
  /-- Connected, with the messages that are delivered but not taken yet. -/
  | connected (queue : List StreamMessage)
  | finished
  | failed (error : StreamError)
deriving DecidableEq

/-- The exchange's clock and the running stream. -/
structure StreamWorld where
  clock : ℤ
  runner : PublicKlineStream
  phase : StreamPhase := .idle
  messages : ℤ := 0
  reconnects : ℤ := 0
  backfilled : ℤ := 0
  maxMessages : ℤ

namespace StreamWorld

/-- The handler of a lost connection. -/
def lost (w : StreamWorld) : StreamWorld :=
  if w.runner.maxReconnects ≤ w.reconnects then
    { w with phase := .failed ⟨"Public stream reconnect limit reached"⟩ }
  else { w with reconnects := w.reconnects + 1, phase := .idle }

/-- Take the next message. -/
def consume (w : StreamWorld) (message : StreamMessage) (queue : List StreamMessage) : StreamWorld :=
  match (PublicKlineStream._consume message).call w.runner with
  | (.ok _, runner) => { w with
      runner, messages := w.messages + 1
      phase := if w.messages + 1 < w.maxMessages then .connected queue else .finished }
  | (.error (.stream e), runner) => { w with runner, phase := .failed e }
  | (.error .reconnect, runner) => lost { w with runner }

def backfill (w : StreamWorld) (client : BinancePublicRestClient) : StreamWorld :=
  match (PublicKlineStream._backfill client).call w.runner with
  | (.ok n, runner) => { w with
      runner, backfilled := w.backfilled + n
      phase := .ready (some w.clock) }
  | (.error e, runner) => { w with runner, phase := .failed e }

inductive Step (x : Exchange) : StreamWorld → StreamWorld → Prop where
  | wait {w : StreamWorld} {t : ℤ} (ht : w.clock ≤ t) (hq : ∀ q, w.phase ≠ .connected q) :
      Step x w { w with clock := t }
  | deliver {w : StreamWorld} {t : ℤ} {queue : List StreamMessage} {news : List Candle}
      (hq : w.phase = .connected queue) (ht : w.clock ≤ t)
      (hnews : x.Closings w.runner.subscriptions w.clock t news) :
      Step x w { w with clock := t, phase := .connected (queue ++ news.map .kline) }
  | update {w : StreamWorld} {queue : List StreamMessage} {c : Candle}
      (hq : w.phase = .connected queue) (hopen : c.isClosed = false)
      (htime : c.openTimeMs = closedCount c.pair w.clock * c.pair.2.milliseconds) :
      Step x w { w with phase := .connected (queue ++ [.kline c]) }
  | notice {w : StreamWorld} {queue : List StreamMessage} {message : StreamMessage}
      (hq : w.phase = .connected queue) (hm : ∀ c, message ≠ .kline c) :
      Step x w { w with phase := .connected (queue ++ [message]) }
  | start {w : StreamWorld} (hp : w.phase = .idle) (hr : w.reconnects = 0) :
      Step x w { w with phase := .ready none }
  | backfill {w : StreamWorld} {client : BinancePublicRestClient} {t : ℤ} (hp : w.phase = .idle)
      (hr : w.reconnects ≠ 0) (ht : w.clock ≤ t) (hc : x.Serves client w.clock t) :
      Step x w { w.backfill client with clock := t }
  | connect {w : StreamWorld} {s : Option ℤ} (hp : w.phase = .ready s) :
      Step x w { w with phase := .connected [] }
  | refuse {w : StreamWorld} {s : Option ℤ} (hp : w.phase = .ready s) : Step x w w.lost
  | receive {w : StreamWorld} {message : StreamMessage} {queue : List StreamMessage}
      (hq : w.phase = .connected (message :: queue)) : Step x w (w.consume message queue)
  | drop {w : StreamWorld} {queue : List StreamMessage} (hq : w.phase = .connected queue) :
      Step x w w.lost

/-- A runner that has just been built: it has taken nothing yet. -/
def Fresh (w : StreamWorld) : Prop :=
  w.phase = .idle ∧ w.reconnects = 0 ∧ ∀ p, w.runner.last p = none

end StreamWorld

end TradingLab

/-!
## What survives a handoff

The candles a store holds of a pair stay a contiguous run as long as nothing is
missed between fetching and listening. The runner fetches first and connects
afterwards, so a candle that closes in between is delivered on no path. The run
rule carries, for every pair, the number of the next candle whose closing the
runner expects.
-/

namespace TradingLab

open PublicKlineStream (_consume _storeRows _backfillPair _backfillPairs _backfill writeStore)

variable {a b n k : ℕ} {t s u : PublicKlineStream} {x : Exchange}
  {client : BinancePublicRestClient} {c : Candle} {ε : Type} {e : ε} {r : WriteResult}
  {time later : ℤ} {queue : List StreamMessage}

theorem filter_range_between (hab : a ≤ b) (hbn : b ≤ n) :
    (List.range n).filter (fun k => a ≤ k ∧ k < b) = List.range' a (b - a) := by
  have hsplit : List.range n = List.range' 0 a ++ (List.range' a (b - a) ++ List.range' b (n - b)) := by
    have h1 := List.range'_append_1 (s := a) (m := b - a) (n := n - b)
    rw [show a + (b - a) = b by omega] at h1
    have h2 := List.range'_append_1 (s := 0) (m := a) (n := b - a + (n - b))
    rw [Nat.zero_add, show a + (b - a + (n - b)) = n by omega] at h2
    rw [h1, h2, List.range_eq_range']
  have hlow : (List.range' 0 a).filter (fun k => decide (a ≤ k ∧ k < b)) = [] := by
    rw [List.filter_eq_nil_iff]
    intro k hk
    rw [List.mem_range'_1] at hk
    simp only [decide_eq_true_eq]
    omega
  have hmid : (List.range' a (b - a)).filter (fun k => decide (a ≤ k ∧ k < b)) =
      List.range' a (b - a) := by
    rw [List.filter_eq_self]
    intro k hk
    rw [List.mem_range'_1] at hk
    simp only [decide_eq_true_eq]
    omega
  have hhigh : (List.range' b (n - b)).filter (fun k => decide (a ≤ k ∧ k < b)) = [] := by
    rw [List.filter_eq_nil_iff]
    intro k hk
    rw [List.mem_range'_1] at hk
    simp only [decide_eq_true_eq]
    omega
  rw [hsplit, List.filter_append, List.filter_append, hlow, hmid, hhigh, List.nil_append,
    List.append_nil]

theorem Exchange.klines_eq (x : Exchange) {t : ℤ} {p : Symbol × Interval} (hab : a ≤ b)
    (hb : b ≤ closedCount p t) (limit : ℤ) :
    x.klines t p limit (a * p.2.milliseconds) (b * p.2.milliseconds - 1) =
      ((List.range' a (b - a)).take limit.toNat).map (x.row p) := by
  have hd := p.2.milliseconds_pos
  have hle : ∀ k : ℕ, ((a : ℤ) * p.2.milliseconds ≤ k * p.2.milliseconds ∧
      (k : ℤ) * p.2.milliseconds ≤ b * p.2.milliseconds - 1) ↔ (a ≤ k ∧ k < b) := by
    intro k
    rw [mul_le_mul_iff_left₀ hd, Int.le_sub_one_iff, mul_lt_mul_iff_left₀ hd]
    omega
  unfold Exchange.klines
  simp only [hle]
  rw [filter_range_between hab hb]

/-- Every page of a served range continues where the one before ended. -/
theorem pages_served {s t : ℤ}
    {p : Symbol × Interval} (hc : x.Serves client s t) (hb : b ≤ closedCount p s) (n : ℕ) :
    ∀ {c : ℕ} {collected rows : List KlineRow}, c ≤ b → b - c < n →
      History._pages client p (b * p.2.milliseconds) n (c * p.2.milliseconds) collected = .ok rows →
      rows = collected ++ (List.range' c (b - c)).map (x.row p) := by
  have hd := p.2.milliseconds_pos
  induction n with
  | zero => omega
  | succ n ih =>
    intro c collected rows hcb hn h
    rw [History._pages] at h
    split at h
    · rename_i hle
      rw [mul_le_mul_iff_left₀ hd] at hle
      have hbc : b = c := by omega
      cases h
      rw [hbc, Nat.sub_self]
      simp
    · rename_i hlt
      rw [mul_le_mul_iff_left₀ hd] at hlt
      have hcb' : c < b := by omega
      have hcount : ((b : ℤ) * p.2.milliseconds - c * p.2.milliseconds) / p.2.milliseconds = b - c := by
        rw [← sub_mul, Int.mul_ediv_cancel _ hd.ne']
      dsimp only at h
      rw [hcount] at h
      cases hk : client.klines p (min History.pageLimit (b - c)) (c * p.2.milliseconds)
          (b * p.2.milliseconds - 1) with
      | error e =>
        rw [hk] at h
        cases h
      | ok page =>
        obtain ⟨u, hsu, -, hpage⟩ := hc.klines _ _ _ _ _ hk
        rw [x.klines_eq hcb (hb.trans (closedCount_mono p hsu))] at hpage
        set m := min 1000 (b - c) with hm
        have hmin : (min History.pageLimit ((b : ℤ) - c)).toNat = m := by
          unfold History.pageLimit
          omega
        rw [hmin, List.take_range'_of_length_ge (by omega)] at hpage
        rw [hk] at h
        cases page with
        | nil =>
          have hlen := congrArg List.length hpage
          simp only [List.length_nil, List.length_map, List.length_range'] at hlen
          omega
        | cons r rs =>
          have hlast : (r :: rs).getLast (by simp) = x.row p (c + m - 1) := by
            have h := congrArg List.getLast? hpage
            rw [List.getLast?_map, List.getLast?_range', if_neg (by omega),
              List.getLast?_eq_some_getLast (by simp)] at h
            simpa using h
          have hnext : ((c + m - 1 : ℕ) : ℤ) * p.2.milliseconds + p.2.milliseconds =
              ((c + m : ℕ) : ℤ) * p.2.milliseconds := by
            rw [← add_one_mul]
            congr 1
            omega
          simp only [unit_bind_eq_ok, hlast, Exchange.row, KlineRow.ofCandle, x.open_eq, hnext] at h
          obtain ⟨-, -, h⟩ := h
          have hrest := ih (by omega) (by omega) h
          rw [hrest, List.append_assoc, hpage, ← List.map_append]
          congr 2
          have happ := List.range'_append_1 (s := c) (m := m) (n := b - (c + m))
          rw [happ]
          congr 1
          omega

theorem download_served {s t : ℤ}
    {p : Symbol × Interval} (hc : x.Serves client s t) (hb : b ≤ closedCount p s)
    {rows : List KlineRow}
    (h : downloadRange client p (a * p.2.milliseconds) (b * p.2.milliseconds) = .ok rows) :
    a < b ∧ rows = (List.range' a (b - a)).map (x.row p) := by
  have hd := p.2.milliseconds_pos
  unfold downloadRange at h
  simp only [raiseIf_bind_eq_ok, not_or, not_le] at h
  obtain ⟨-, -, ⟨hlt, -⟩, -, h⟩ := h
  have hab : a < b := by
    rw [mul_lt_mul_iff_left₀ hd] at hlt
    omega
  have hcount : ((b : ℤ) * p.2.milliseconds - a * p.2.milliseconds) / p.2.milliseconds = b - a := by
    rw [← sub_mul, Int.mul_ediv_cancel _ hd.ne']
  rw [hcount] at h
  have hrows := pages_served hc hb _ hab.le (by omega) h
  rw [List.nil_append] at hrows
  exact ⟨hab, hrows⟩

theorem normalize_row {p : Symbol × Interval} {t : ℤ}
    (hk : k < closedCount p t) (h : normalizeRestKline p (x.row p k) t = .ok c) :
    c.pair = p ∧ c.openTimeMs = k * p.2.milliseconds ∧ c.isClosed = true := by
  have hclose := (x.candle p k).facts.2.2.1
  have hint : (x.candle p k).interval = p.2 := congrArg Prod.snd (x.pair_eq p k)
  rw [lt_closedCount_iff] at hk
  rw [x.open_eq, hint] at hclose
  unfold normalizeRestKline at h
  simp only [raiseIf_bind_eq_ok] at h
  obtain ⟨-, -, h⟩ := h
  cases hcon : construct (Candle.Fields.postInit _) (fun h => (⟨_, h⟩ : Candle)) with
  | error e =>
    rw [hcon] at h
    cases h
  | ok c' =>
    rw [hcon] at h
    cases h
    obtain ⟨_, rfl⟩ := construct_eq_ok.mp hcon
    refine ⟨rfl, x.open_eq p k, ?_⟩
    simp only [Exchange.row, KlineRow.ofCandle, hclose, decide_eq_true_eq]
    linarith

section Held
variable (p : Symbol × Interval)

def Held (s : PublicKlineStream) (k : ℕ) : Prop :=
  s.store.HoldsClosed p (k * p.2.milliseconds)

/-- Of the candles below `n`, everything after the first one held is held, and nothing else. -/
def Contiguous (s : PublicKlineStream) (n : ℕ) : Prop :=
  (∀ k, Held p s k → k < n) ∧ ∀ a k, Held p s a → a < k → k < n → Held p s k

/-- The last message of the pair was about candle `n`, or it closed the one before. -/
def Tracks (s : PublicKlineStream) (n : ℕ) : Prop :=
  s.last p = some (n * p.2.milliseconds) ∨
    ∃ m, n = m + 1 ∧ s.last p = some (m * p.2.milliseconds) ∧ Held p s m

variable {p}

variable {s t : PublicKlineStream} {n : ℕ}

theorem Contiguous.congr (h : ∀ k, Held p t k ↔ Held p s k)
    (hs : Contiguous p s n) : Contiguous p t n :=
  ⟨fun k hk => hs.1 k ((h k).mp hk),
    fun a k ha hak hkn => (h k).mpr (hs.2 a k ((h a).mp ha) hak hkn)⟩

theorem Contiguous.succ (h : ∀ k, Held p t k ↔ Held p s k ∨ k = n) (hs : Contiguous p s n) :
    Contiguous p t (n + 1) := by
  refine ⟨fun k hk => ?_, fun a k ha hak hkn => ?_⟩
  · rcases (h k).mp hk with hk | rfl
    · exact (hs.1 k hk).trans (Nat.lt_succ_self n)
    · exact Nat.lt_succ_self k
  · rcases Nat.lt_succ_iff_lt_or_eq.mp hkn with hlt | rfl
    · rcases (h a).mp ha with ha | rfl
      · exact (h k).mpr (.inl (hs.2 a k ha hak hlt))
      · omega
    · exact (h k).mpr (.inr rfl)

theorem Tracks.congr (h : ∀ k, Held p t k ↔ Held p s k)
    (hl : t.last p = s.last p) (hs : Tracks p s n) : Tracks p t n := by
  rcases hs with hs | ⟨m, hm, hs, hh⟩
  · exact .inl (hl.trans hs)
  · exact .inr ⟨m, hm, hl.trans hs, (h m).mpr hh⟩

end Held

theorem Candle.openTime_number (c : Candle) :
    ∃ k : ℕ, c.openTimeMs = k * c.pair.2.milliseconds := by
  obtain ⟨h0, hmod, -⟩ := c.facts
  have hd := c.interval.milliseconds_pos
  refine ⟨(c.openTimeMs / c.interval.milliseconds).toNat, ?_⟩
  rw [Int.toNat_of_nonneg (Int.ediv_nonneg h0 hd.le)]
  exact (Int.ediv_mul_cancel (Int.dvd_of_emod_eq_zero hmod)).symm

@[simp] theorem last_setLast_self (s : PublicKlineStream) (p : Symbol × Interval) (o : ℤ) :
    (s.setLast p o).last p = some o := by
  have h := Table.find?_put_self s.lastOpen (p, o)
  unfold PublicKlineStream.last PublicKlineStream.setLast
  rw [h]
  rfl

theorem last_setLast_ne {p q : Symbol × Interval} {o : ℤ} (h : p ≠ q) :
    (s.setLast p o).last q = s.last q := by
  have h := Table.find?_put_ne (t := s.lastOpen) (r := (p, o)) (k := q) h
  unfold PublicKlineStream.last PublicKlineStream.setLast
  rw [h]

theorem key_mul_eq {p : Symbol × Interval} {j : ℕ} :
    (j : ℤ) * p.2.milliseconds = k * p.2.milliseconds ↔ k = j := by
  rw [mul_left_inj' p.2.milliseconds_pos.ne']
  omega

theorem writeStore_ok (h : (writeStore c e).call s = (.ok r, t)) :
    t.subscriptions = s.subscriptions ∧ t.maxReconnects = s.maxReconnects ∧
      t.lastOpen = s.lastOpen ∧ ∀ q k, Held q t k ↔
        Held q s k ∨ (c.key = (q, k * q.2.milliseconds) ∧ c.isClosed = true) := by
  unfold writeStore at h
  rw [Method.call_zoom] at h
  rcases hw : (CandleStore.write c).call s.store with ⟨_ | r', u⟩
  · rw [hw] at h
    cases h
  · rw [hw] at h
    cases h
    exact ⟨rfl, rfl, rfl, fun q k => CandleStore.holdsClosed_write hw q _⟩

theorem writeStore_error {e' : ε} (h : (writeStore c e).call s = (.error e', t)) : t = s := by
  unfold writeStore at h
  rw [Method.call_zoom] at h
  rcases hw : (CandleStore.write c).call s.store with ⟨_ | r', u⟩
  · rw [hw] at h
    cases h
    rw [CandleStore.write_error hw]
  · rw [hw] at h
    cases h

/-- The two runners know and hold the same of a pair. -/
def Same (p : Symbol × Interval) (s t : PublicKlineStream) : Prop :=
  (∀ k, Held p t k ↔ Held p s k) ∧ t.last p = s.last p

theorem Same.trans {p : Symbol × Interval} (h : Same p s t) (h' : Same p t u) : Same p s u :=
  ⟨fun k => (h'.1 k).trans (h.1 k), h'.2.trans h.2⟩

/-- Everything but one pair is as before. -/
structure KeepsOthers (p : Symbol × Interval) (s t : PublicKlineStream) : Prop where
  subscriptions : t.subscriptions = s.subscriptions
  maxReconnects : t.maxReconnects = s.maxReconnects
  same : ∀ q, q ≠ p → Same q s t

theorem KeepsOthers.refl (p : Symbol × Interval) (s : PublicKlineStream) : KeepsOthers p s s :=
  ⟨rfl, rfl, fun _ _ => ⟨fun _ => Iff.rfl, rfl⟩⟩

theorem KeepsOthers.trans {p : Symbol × Interval}
    (h : KeepsOthers p s t) (h' : KeepsOthers p t u) : KeepsOthers p s u :=
  ⟨h'.subscriptions.trans h.subscriptions, h'.maxReconnects.trans h.maxReconnects,
    fun q hq => (h.same q hq).trans (h'.same q hq)⟩

/-- Storing a candle and remembering it concerns its own pair only. -/
theorem record_candle
    {p : Symbol × Interval} (hp : c.pair = p) (hk : c.openTimeMs = k * p.2.milliseconds)
    (h : (writeStore c e).call s = (.ok r, t)) :
    KeepsOthers p s (t.setLast p c.openTimeMs) ∧
      (t.setLast p c.openTimeMs).last p = some (k * p.2.milliseconds) ∧
      ∀ j, Held p (t.setLast p c.openTimeMs) j ↔ Held p s j ∨ (j = k ∧ c.isClosed = true) := by
  obtain ⟨hsub, hmax, hlast, hheld⟩ := writeStore_ok h
  have hsame : ∀ q, t.last q = s.last q := fun q => by
    unfold PublicKlineStream.last
    rw [hlast]
  refine ⟨⟨hsub, hmax, fun q hq => ⟨fun j => ?_, ?_⟩⟩, ?_, fun j => ?_⟩
  · refine (hheld q j).trans ⟨?_, .inl⟩
    rintro (hj | ⟨hkey, -⟩)
    · exact hj
    · exact (hq ((congrArg Prod.fst hkey).symm.trans hp)).elim
  · rw [last_setLast_ne (Ne.symm hq), hsame]
  · rw [last_setLast_self, hk]
  · refine (hheld p j).trans (or_congr_right (and_congr_left fun _ => ?_))
    rw [Candle.key, hp, hk, Prod.mk.injEq, key_mul_eq]
    exact and_iff_right rfl

theorem contiguous_record {p : Symbol × Interval}
    (hs : Contiguous p s n) (hk : k = n ∨ (k + 1 = n ∧ Held p s k))
    (h : ∀ j, Held p t j ↔ Held p s j ∨ j = k) : Contiguous p t (k + 1) := by
  rcases hk with rfl | ⟨rfl, hh⟩
  · exact hs.succ h
  · refine hs.congr fun j => (h j).trans ⟨?_, .inl⟩
    rintro (hj | rfl)
    · exact hj
    · exact hh

/-- Storing a served range extends the run candle by candle, however far it gets. -/
theorem storeRows_served {p : Symbol × Interval} (m : ℕ) :
    ∀ {k n : ℕ} {s t : PublicKlineStream} {r : Except StreamError ℕ}, Contiguous p s n →
      (k = n ∨ (k + 1 = n ∧ Held p s k)) → k + m ≤ closedCount p time →
      (_storeRows p time ((List.range' k m).map (x.row p))).call s = (r, t) →
      KeepsOthers p s t ∧ (∃ n', n' ≤ max n (k + m) ∧ Contiguous p t n') ∧
        (∀ total, r = .ok total → 0 < m → Contiguous p t (k + m) ∧ Tracks p t (k + m)) := by
  induction m with
  | zero =>
    intro k n s t r hs _ _ h
    cases h
    exact ⟨.refl p s, ⟨n, by omega, hs⟩, by omega⟩
  | succ m ih =>
    intro k n s t r hs hk hle h
    rw [List.range'_succ, List.map_cons, _storeRows] at h
    rw [Method.call_bind, Method.call_check] at h
    cases hn : normalizeRestKline p (x.row p k) time with
    | error e =>
      rw [hn] at h
      cases h
      exact ⟨.refl p s, ⟨n, by omega, hs⟩, nofun⟩
    | ok c =>
      obtain ⟨hp, ho, hcl⟩ := normalize_row (by omega) hn
      rw [hn] at h
      simp only [Except.mapError] at h
      rw [Method.call_bind] at h
      rcases hw : (writeStore c PublicKlineStream.backfillFailed).call s with ⟨_ | w, u⟩
      · rw [hw] at h
        cases h
        rw [writeStore_error hw]
        exact ⟨.refl p s, ⟨n, by omega, hs⟩, nofun⟩
      · rw [hw] at h
        simp only [Method.call_modify_bind] at h
        obtain ⟨hkeep, hlast, hheld⟩ := record_candle hp ho hw
        simp only [hcl, and_true] at hheld
        set u' := u.setLast p c.openTimeMs
        have hs' := contiguous_record hs hk hheld
        have htrack : Tracks p u' (k + 1) := .inr ⟨k, rfl, hlast, (hheld k).mpr (.inr rfl)⟩
        rw [Method.call_bind] at h
        rcases hrest : (_storeRows p time ((List.range' (k + 1) m).map (x.row p))).call u' with
          ⟨r', v⟩
        obtain ⟨hkeep', ⟨n', hn', hc'⟩, hok⟩ := ih hs' (.inl rfl) (by omega) hrest
        rw [hrest] at h
        have hv : t = v := by
          cases r' <;> cases h <;> rfl
        subst hv
        refine ⟨hkeep.trans hkeep', ⟨n', by omega, hc'⟩, ?_⟩
        rintro total rfl -
        cases r' with
        | error e => cases h
        | ok total' =>
          rcases Nat.eq_zero_or_pos m with rfl | hm
          · have ht : u' = t := congrArg Prod.snd hrest
            rw [← ht]
            exact ⟨hs', htrack⟩
          · have := hok total' rfl hm
            rwa [show k + 1 + m = k + (m + 1) by omega] at this

/-- After a backfill of a pair that has been heard of, the run reaches the server time. -/
theorem backfillPair_served
    {p : Symbol × Interval} (hc : x.Serves client time later) {r : Except StreamError ℕ}
    (hs : Contiguous p s n)
    (ht : s.last p = none ∨ Tracks p s n) (hn : n ≤ closedCount p time)
    (h : (_backfillPair client time p).call s = (r, t)) :
    KeepsOthers p s t ∧ (∃ n', n' ≤ closedCount p time ∧ Contiguous p t n') ∧
      (∀ total, r = .ok total →
        (s.last p = none ∧ t = s) ∨
          (Contiguous p t (closedCount p time) ∧ Tracks p t (closedCount p time))) := by
  unfold _backfillPair at h
  rw [Method.call_read_bind] at h
  have hstay : KeepsOthers p s s ∧ ∃ n', n' ≤ closedCount p time ∧ Contiguous p s n' :=
    ⟨.refl p s, n, hn, hs⟩
  cases hl : s.last p with
  | none =>
    rw [hl] at h
    cases h
    exact ⟨hstay.1, hstay.2, fun _ _ => .inl ⟨rfl, rfl⟩⟩
  | some start =>
    -- the last message was about candle `k`
    obtain ⟨k, hstart, hk⟩ : ∃ k : ℕ, start = k * p.2.milliseconds ∧
        (k = n ∨ (k + 1 = n ∧ Held p s k)) := by
      rcases ht with ht | ht | ⟨m, hm, ht, hh⟩
      · rw [hl] at ht
        cases ht
      · rw [hl, Option.some.injEq] at ht
        exact ⟨n, ht, .inl rfl⟩
      · rw [hl, Option.some.injEq] at ht
        exact ⟨m, ht, .inr ⟨hm.symm, hh⟩⟩
    have hd := p.2.milliseconds_pos
    rw [hl, hstart] at h
    simp only at h
    split at h
    · -- nothing closed since: the run already ends at the server time
      rename_i hle
      cases h
      refine ⟨hstay.1, hstay.2, fun _ _ => .inr ?_⟩
      have hkn : closedCount p time ≤ k := by
        rw [mul_le_mul_iff_left₀ hd] at hle
        unfold closedCount
        omega
      have hend : closedCount p time = n := by omega
      rw [hend]
      rcases ht with ht | ht
      · rw [hl] at ht
        cases ht
      · exact ⟨hs, ht⟩
    · rename_i hlt
      have hcount : time / p.2.milliseconds = (closedCount p time : ℤ) := by
        rw [mul_le_mul_iff_left₀ hd] at hlt
        unfold closedCount
        omega
      rw [hcount, mul_le_mul_iff_left₀ hd] at hlt
      rw [hcount, Method.call_bind, Method.call_check] at h
      cases hlim : (raiseIf (maxBackfillCandles < ((closedCount p time : ℤ) * p.2.milliseconds -
          k * p.2.milliseconds) / p.2.milliseconds)
          ⟨"Disconnect backfill exceeds the fixed limit"⟩ : Except StreamError Unit) with
      | error e =>
        rw [hlim] at h
        cases h
        exact ⟨hstay.1, hstay.2, fun _ hr => by cases hr⟩
      | ok u =>
        rw [hlim] at h
        simp only at h
        rw [Method.call_bind, Method.call_check] at h
        cases hrows : downloadRange client p (k * p.2.milliseconds)
            (closedCount p time * p.2.milliseconds) with
        | error e =>
          rw [hrows] at h
          cases h
          exact ⟨hstay.1, hstay.2, fun _ hr => by cases hr⟩
        | ok rows =>
          rw [hrows] at h
          simp only [Except.mapError] at h
          obtain ⟨hkb, rfl⟩ := download_served hc le_rfl hrows
          have hlen : k + (closedCount p time - k) = closedCount p time := by omega
          obtain ⟨hkeep, ⟨n', hn', hc'⟩, hok⟩ := storeRows_served _ hs hk hlen.le h
          refine ⟨hkeep, ⟨n', by omega, hc'⟩, fun total hr => .inr ?_⟩
          have := hok total hr (by omega)
          rwa [hlen] at this

/-- Of a pair, the runner holds a run that ends before a time, and it knows where. -/
def InStep (p : Symbol × Interval) (s : PublicKlineStream) (time : ℤ) : Prop :=
  ∃ n, n ≤ closedCount p time ∧ Contiguous p s n ∧ (s.last p = none ∨ Tracks p s n)

/-- Of a pair, the runner holds everything up to a time. -/
def CaughtUp (p : Symbol × Interval) (s : PublicKlineStream) (time : ℤ) : Prop :=
  Contiguous p s (closedCount p time) ∧ Tracks p s (closedCount p time)

theorem InStep.congr {p : Symbol × Interval}
    (h : Same p s t) (hs : InStep p s time) : InStep p t time := by
  obtain ⟨n, hn, hc, ht⟩ := hs
  refine ⟨n, hn, hc.congr h.1, ?_⟩
  rcases ht with ht | ht
  · exact .inl (h.2.trans ht)
  · exact .inr (ht.congr h.1 h.2)

theorem CaughtUp.congr {p : Symbol × Interval}
    (h : Same p s t) (hs : CaughtUp p s time) : CaughtUp p t time :=
  ⟨hs.1.congr h.1, hs.2.congr h.1 h.2⟩

theorem backfillPairs_served (hc : x.Serves client time later) {ps : List (Symbol × Interval)}
    (pairs : List (Symbol × Interval)) :
    ∀ {s t : PublicKlineStream} {r : Except StreamError ℕ}, pairs ⊆ ps →
      (∀ p ∈ ps, InStep p s time) → (_backfillPairs client time pairs).call s = (r, t) →
      t.subscriptions = s.subscriptions ∧ t.maxReconnects = s.maxReconnects ∧
        (∀ p ∈ ps, ∃ n, n ≤ closedCount p time ∧ Contiguous p t n) ∧
        (∀ total, r = .ok total → ∀ p ∈ ps,
          CaughtUp p t time ∨ ((s.last p = none ∨ p ∉ pairs) ∧ Same p s t)) := by
  induction pairs with
  | nil =>
    intro s t r _ hs h
    cases h
    refine ⟨rfl, rfl, fun p hp => ?_,
      fun _ _ p _ => .inr ⟨.inr List.not_mem_nil, fun _ => Iff.rfl, rfl⟩⟩
    obtain ⟨n, hn, hcon, -⟩ := hs p hp
    exact ⟨n, hn, hcon⟩
  | cons q pairs ih =>
    intro s t r hsub' hs h
    obtain ⟨hqps, hsub'⟩ := List.cons_subset.mp hsub'
    rw [_backfillPairs, Method.call_bind] at h
    obtain ⟨n, hn, hcon, htr⟩ := hs q hqps
    rcases hq : (_backfillPair client time q).call s with ⟨r', u⟩
    obtain ⟨hkeep, ⟨n', hn', hc'⟩, hok⟩ := backfillPair_served hc hcon htr hn hq
    rw [hq] at h
    have hothers : ∀ p ∈ ps, ∃ m, m ≤ closedCount p time ∧ Contiguous p u m := by
      intro p hps
      by_cases hp : p = q
      · subst hp
        exact ⟨n', hn', hc'⟩
      · obtain ⟨m, hm, hcm, -⟩ := hs p hps
        exact ⟨m, hm, hcm.congr (hkeep.same p hp).1⟩
    cases r' with
    | error e =>
      cases h
      exact ⟨hkeep.subscriptions, hkeep.maxReconnects, hothers, nofun⟩
    | ok total' =>
      have hstep : ∀ p ∈ ps, InStep p u time := by
        intro p hps
        by_cases hp : p = q
        · subst hp
          rcases hok total' rfl with ⟨-, rfl⟩ | ⟨h1, h2⟩
          · exact hs p hps
          · exact ⟨_, le_rfl, h1, .inr h2⟩
        · exact (hs p hps).congr (hkeep.same p hp)
      simp only at h
      rw [Method.call_bind] at h
      rcases hrest : (_backfillPairs client time pairs).call u with ⟨r'', v⟩
      obtain ⟨hsub, hmax, hall, hok'⟩ := ih hsub' hstep hrest
      rw [hrest] at h
      have hv : t = v := by
        cases r'' <;> cases h <;> rfl
      subst hv
      refine ⟨hsub.trans hkeep.subscriptions, hmax.trans hkeep.maxReconnects, hall, ?_⟩
      rintro total rfl p hps
      cases r'' with
      | error e => cases h
      | ok total'' =>
        rcases hok' total'' rfl p hps with hcaught | ⟨hwhy, hsame⟩
        · exact .inl hcaught
        · by_cases hp : p = q
          · subst hp
            rcases hok total' rfl with ⟨hnone, rfl⟩ | hcaught
            · exact .inr ⟨.inl hnone, hsame⟩
            · exact .inl (CaughtUp.congr hsame hcaught)
          · have hpq := hkeep.same p hp
            refine .inr ⟨?_, hpq.trans hsame⟩
            rcases hwhy with hnone | hnot
            · exact .inl (hpq.2.symm.trans hnone)
            · exact .inr (by simp [hp, hnot])

/-- A whole backfill: every subscribed pair that has been heard of is caught up. -/
theorem backfill_served (hc : x.Serves client time later) {r : Except StreamError ℕ}
    (hs : ∀ p ∈ s.subscriptions, InStep p s time) (h : (_backfill client).call s = (r, t)) :
    t.subscriptions = s.subscriptions ∧ t.maxReconnects = s.maxReconnects ∧
      (∀ p ∈ s.subscriptions, ∃ n, n ≤ closedCount p time ∧ Contiguous p t n) ∧
      (∀ total, r = .ok total → ∀ p ∈ s.subscriptions,
        CaughtUp p t time ∨ (s.last p = none ∧ Same p s t)) := by
  have hstay : ∀ p ∈ s.subscriptions, ∃ n, n ≤ closedCount p time ∧ Contiguous p s n := by
    intro p hp
    obtain ⟨n, hn, hcon, -⟩ := hs p hp
    exact ⟨n, hn, hcon⟩
  unfold _backfill at h
  rw [Method.call_read_bind] at h
  split at h
  · rename_i hempty
    cases h
    refine ⟨rfl, rfl, hstay, fun _ _ p _ => .inr ⟨?_, fun _ => Iff.rfl, rfl⟩⟩
    rw [List.isEmpty_iff] at hempty
    simp [PublicKlineStream.last, Table.find?, hempty]
  · rw [Method.call_bind, Method.call_check] at h
    cases htime : client.serverTime with
    | error e =>
      rw [htime] at h
      cases h
      exact ⟨rfl, rfl, hstay, fun _ hr => by cases hr⟩
    | ok serverTime =>
      obtain rfl := hc.serverTime _ htime
      rw [htime] at h
      simp only [Except.mapError, Method.call_read_bind] at h
      obtain ⟨hsub, hmax, hall, hok⟩ := backfillPairs_served hc _ (List.Subset.refl _) hs h
      refine ⟨hsub, hmax, hall, fun total hr p hp => ?_⟩
      rcases hok total hr p hp with hcaught | ⟨hnone | hnot, hsame⟩
      · exact .inl hcaught
      · exact .inr ⟨hnone, hsame⟩
      · exact (hnot hp).elim

/-- The messages of a pair in a queue: updates of the candle that is expected to close next,
and closings one after the other. -/
def Feed (p : Symbol × Interval) : ℕ → List StreamMessage → ℕ → Prop
  | n, [], e => n = e
  | n, .kline c :: queue, e =>
      if c.pair = p then
        c.openTimeMs = n * p.2.milliseconds ∧ Feed p (if c.isClosed then n + 1 else n) queue e
      else Feed p n queue e
  | n, .serverShutdown :: queue, e => Feed p n queue e
  | n, .invalid _ :: queue, e => Feed p n queue e

theorem Feed.le {p : Symbol × Interval} {e : ℕ} (h : Feed p n queue e) : n ≤ e := by
  induction queue generalizing n with
  | nil => exact le_of_eq h
  | cons m queue ih =>
    cases m with
    | serverShutdown => exact ih h
    | invalid err => exact ih h
    | kline c =>
      rw [Feed] at h
      split at h
      · have := ih h.2
        split at this <;> omega
      · exact ih h

theorem Feed.append {p : Symbol × Interval} {more : List StreamMessage} {m e : ℕ}
    (h : Feed p n queue m) (h' : Feed p m more e) : Feed p n (queue ++ more) e := by
  induction queue generalizing n with
  | nil =>
    cases h
    exact h'
  | cons msg queue ih =>
    cases msg with
    | serverShutdown => exact ih h
    | invalid err => exact ih h
    | kline c =>
      rw [Feed] at h
      rw [List.cons_append, Feed]
      split
      · rename_i hp
        rw [if_pos hp] at h
        exact ⟨h.1, ih h.2⟩
      · rename_i hp
        rw [if_neg hp] at h
        exact ih h

theorem feed_closings {p : Symbol × Interval} (news : List Candle) :
    ∀ {n m : ℕ}, news.filter (fun c => c.pair = p) = (List.range' n m).map (x.candle p) →
      Feed p n (news.map .kline) (n + m) := by
  induction news with
  | nil =>
    intro n m h
    have hm : m = 0 := by simpa using congrArg List.length h.symm
    rw [hm]
    rfl
  | cons c news ih =>
    intro n m h
    rw [List.map_cons, Feed]
    by_cases hp : c.pair = p
    · rw [if_pos hp]
      rw [List.filter_cons_of_pos (by simpa using hp)] at h
      cases m with
      | zero => cases h
      | succ m =>
        rw [List.range'_succ, List.map_cons, List.cons.injEq] at h
        obtain ⟨rfl, h⟩ := h
        rw [x.closed, if_pos rfl, x.open_eq]
        have hrest := ih h
        rw [show n + 1 + m = n + (m + 1) by omega] at hrest
        exact ⟨rfl, hrest⟩
    · rw [if_neg hp]
      rw [List.filter_cons_of_neg (by simpa using hp)] at h
      exact ih h

/-- A message that raises changes nothing; any other one is a candle that is stored. -/
theorem consume_cases (message : StreamMessage) (s : PublicKlineStream) :
    (∃ err, (_consume message).call s = (.error err, s)) ∨
      ∃ c error w v, message = .kline c ∧
        (writeStore c (error : Interrupt)).call s = (.ok w, v) ∧
        (_consume message).call s = (.ok (), v.setLast c.pair c.openTimeMs) := by
  cases message with
  | invalid err => exact .inl ⟨_, rfl⟩
  | serverShutdown => exact .inl ⟨_, rfl⟩
  | kline c =>
    rw [_consume, Method.call_read_bind, Method.call_bind, Method.call_check]
    rcases (raiseIf (c.pair ∉ s.subscriptions)
        (.stream ⟨"Stream returned an unsubscribed candle"⟩) : Except Interrupt Unit) with err | u
    · exact .inl ⟨_, rfl⟩
    simp only [Method.call_read_bind]
    rw [Method.call_bind, Method.call_check]
    rcases (raiseIf ((s.last c.pair).any fun o => decide (c.openTimeMs < o))
        (.stream ⟨"Stream candle arrived out of order"⟩) : Except Interrupt Unit) with err | u
    · exact .inl ⟨_, rfl⟩
    simp only
    rw [Method.call_bind]
    rcases hw : (writeStore c (Interrupt.stream
        ⟨"Stream candle could not be stored safely"⟩)).call s with ⟨err | w, v⟩
    · rw [writeStore_error hw]
      exact .inl ⟨_, rfl⟩
    · exact .inr ⟨c, _, w, v, rfl, hw, rfl⟩

/-- Taking the next message keeps the run, and the queue goes on where the run ends. -/
theorem consume_feed {p : Symbol × Interval} {e : ℕ} {message : StreamMessage}
    (hf : Feed p n (message :: queue) e)
    (hs : Contiguous p s n) (ht : s.last p = none ∨ Tracks p s n)
    (h : (_consume message).call s = (.ok (), t)) :
    ∃ m, Contiguous p t m ∧ (t.last p = none ∨ Tracks p t m) ∧ Feed p m queue e := by
  rcases consume_cases message s with ⟨err, herr⟩ | ⟨c, error, w, v, rfl, hw, hok⟩
  · rw [herr] at h
    cases h
  rw [hok] at h
  cases h
  rw [Feed] at hf
  by_cases hp : c.pair = p
  · subst hp
    rw [if_pos rfl] at hf
    obtain ⟨ho, hf⟩ := hf
    obtain ⟨-, hlast, hheld⟩ := record_candle rfl ho hw
    cases hcl : c.isClosed with
    | true =>
      rw [hcl, if_pos rfl] at hf
      simp only [hcl, and_true] at hheld
      exact ⟨n + 1, hs.succ hheld, .inr (.inr ⟨n, rfl, hlast, (hheld n).mpr (.inr rfl)⟩), hf⟩
    | false =>
      rw [hcl, if_neg Bool.false_ne_true] at hf
      simp only [hcl, Bool.false_eq_true, and_false, or_false] at hheld
      exact ⟨n, hs.congr hheld, .inr (.inl hlast), hf⟩
  · rw [if_neg hp] at hf
    -- a message about another pair changes nothing here
    obtain ⟨k, hk⟩ := c.openTime_number
    obtain ⟨hkeep, -, -⟩ := record_candle rfl hk hw
    obtain ⟨hheld, hlast⟩ := hkeep.same p (Ne.symm hp)
    refine ⟨n, hs.congr hheld, ?_, hf⟩
    rcases ht with ht | ht
    · exact .inl (hlast.trans ht)
    · exact .inr (ht.congr hheld hlast)

end TradingLab
