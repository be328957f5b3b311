import TradingLab.Data.Handoff

/-!
# No candle is lost in a seamless run

A run is seamless when, at every connection, no candle of a pair that has been
heard of closed since the server time the backfill read, and the store is up to
date for every other pair. In a seamless run the closed candles held of each
subscribed pair never have a gap. A run that is not seamless can lose a candle.
-/

namespace TradingLab

open PublicKlineStream (_consume _backfill)

/-- Between two closed candles that are held, every candle the exchange closed is held. -/
def NoGap (p : Symbol × Interval) (store : CandleStore) : Prop :=
  ∀ a b, store.HoldsClosed p a → store.HoldsClosed p b → ∀ k : ℕ,
    a < k * p.2.milliseconds → k * p.2.milliseconds < b →
    store.HoldsClosed p (k * p.2.milliseconds)

/-- Every closed candle that is held was closed by the given time. -/
def HoldsPast (p : Symbol × Interval) (store : CandleStore) (time : ℤ) : Prop :=
  ∀ k : ℕ, store.HoldsClosed p (k * p.2.milliseconds) → k < closedCount p time

/-- After any candle that is held, every candle closed so far is held. -/
def UpToDate (p : Symbol × Interval) (w : StreamWorld) : Prop :=
  ∀ a k, Held p w.runner a → a < k → k < closedCount p w.clock → Held p w.runner k

/-- Nothing is missed when the connection opens now. -/
def Seamless (p : Symbol × Interval) (w : StreamWorld) : Prop :=
  match w.phase, w.runner.last p with
  | .ready (some time), some _ => closedCount p w.clock = closedCount p time
  | _, _ => UpToDate p w

/-- A step of a seamless run: where it opens a connection, nothing is missed. -/
def SeamlessStep (x : Exchange) (v w : StreamWorld) : Prop :=
  v.Step x w ∧
    ∀ s, v.phase = .ready s → w.phase = .connected [] → ∀ p ∈ v.runner.subscriptions, Seamless p v

theorem holdsClosed_number {p : Symbol × Interval} {store : CandleStore} {o : ℤ}
    (h : store.HoldsClosed p o) : ∃ k : ℕ, o = k * p.2.milliseconds := by
  obtain ⟨c, hc, -⟩ := h
  have hkey := Table.key_of_find? hc
  rw [Candle.key, Prod.mk.injEq] at hkey
  obtain ⟨rfl, rfl⟩ := hkey
  exact c.openTime_number

theorem Contiguous.noGap {p : Symbol × Interval} {s : PublicKlineStream} {n : ℕ}
    (h : Contiguous p s n) : NoGap p s.store := by
  intro a b ha hb k hak hkb
  obtain ⟨i, rfl⟩ := holdsClosed_number ha
  obtain ⟨j, rfl⟩ := holdsClosed_number hb
  have hd := p.2.milliseconds_pos
  rw [mul_lt_mul_iff_left₀ hd] at hak hkb
  have hj := h.1 j hb
  exact h.2 i k ha (by omega) (by omega)

/-- A store without a gap holds a run of candles. -/
theorem contiguous_of_noGap {p : Symbol × Interval} {s : PublicKlineStream} {time : ℤ}
    (hgap : NoGap p s.store) (hpast : HoldsPast p s.store time) :
    ∃ n, n ≤ closedCount p time ∧ Contiguous p s n := by
  have hd := p.2.milliseconds_pos
  -- the run ends after the greatest candle that is held below some bound
  suffices h : ∀ m, ∃ n, n ≤ m ∧ (∀ k, Held p s k → k < m → k < n) ∧
      (n = 0 ∨ ∃ j, n = j + 1 ∧ Held p s j) by
    obtain ⟨n, hn, hall, hend⟩ := h (closedCount p time)
    refine ⟨n, hn, fun k hk => hall k hk (hpast k hk), fun a k ha hak hkn => ?_⟩
    rcases hend with rfl | ⟨j, rfl, hj⟩
    · omega
    · rcases Nat.lt_succ_iff_lt_or_eq.mp hkn with hlt | rfl
      · refine hgap _ _ ha hj k ?_ ?_
        · rw [mul_lt_mul_iff_left₀ hd]
          omega
        · rw [mul_lt_mul_iff_left₀ hd]
          omega
      · exact hj
  intro m
  induction m with
  | zero => exact ⟨0, le_rfl, by omega, .inl rfl⟩
  | succ m ih =>
    obtain ⟨n, hn, hall, hend⟩ := ih
    by_cases hm : Held p s m
    · exact ⟨m + 1, le_rfl, fun k _ hk => hk, .inr ⟨m, rfl, hm⟩⟩
    · refine ⟨n, by omega, fun k hk hkm => ?_, hend⟩
      rcases Nat.lt_succ_iff_lt_or_eq.mp hkm with hlt | rfl
      · exact hall k hk hlt
      · exact (hm hk).elim

/-- What the runner expects of a pair in each phase, when the run it holds ends before `n`. -/
def Expects (p : Symbol × Interval) (w : StreamWorld) (n : ℕ) : Prop :=
  match w.phase with
  | .idle => (w.runner.last p = none ∨ Tracks p w.runner n) ∧
      (w.reconnects = 0 → w.runner.last p = none)
  | .ready none => w.runner.last p = none
  | .ready (some time) =>
      w.runner.last p = none ∨ (Tracks p w.runner n ∧ n = closedCount p time)
  | .connected queue => (w.runner.last p = none ∨ Tracks p w.runner n) ∧
      Feed p n queue (closedCount p w.clock)
  | .finished | .failed _ => True

/-- Of a pair, a run of candles closed so far is held, and what comes next is expected. -/
def PairInv (p : Symbol × Interval) (w : StreamWorld) : Prop :=
  ∃ n, n ≤ closedCount p w.clock ∧ Contiguous p w.runner n ∧ Expects p w n

structure StreamInv (w : StreamWorld) : Prop where
  reconnects : 0 ≤ w.reconnects
  pairs : ∀ p ∈ w.runner.subscriptions, PairInv p w

variable {w : StreamWorld}

theorem pairInv_lost {p : Symbol × Interval} {n : ℕ} (h0 : 0 ≤ w.reconnects)
    (hn : n ≤ closedCount p w.clock) (hc : Contiguous p w.runner n)
    (ht : w.runner.last p = none ∨ Tracks p w.runner n) : PairInv p w.lost := by
  unfold StreamWorld.lost
  split
  · exact ⟨n, hn, hc, trivial⟩
  · refine ⟨n, hn, hc, ht, fun h => ?_⟩
    change w.reconnects + 1 = 0 at h
    omega

theorem lost_frame (w : StreamWorld) : w.lost.runner = w.runner ∧ w.lost.clock = w.clock ∧
    (0 ≤ w.reconnects → 0 ≤ w.lost.reconnects) := by
  unfold StreamWorld.lost
  split
  · exact ⟨rfl, rfl, id⟩
  · exact ⟨rfl, rfl, fun h => by change 0 ≤ w.reconnects + 1; omega⟩

theorem streamInv_lost (h0 : 0 ≤ w.reconnects)
    (h : ∀ p ∈ w.runner.subscriptions, ∃ n, n ≤ closedCount p w.clock ∧ Contiguous p w.runner n ∧
      (w.runner.last p = none ∨ Tracks p w.runner n)) : StreamInv w.lost := by
  obtain ⟨hr, -, hrec⟩ := lost_frame w
  refine ⟨hrec h0, fun p hp => ?_⟩
  rw [hr] at hp
  obtain ⟨n, hn, hc, ht⟩ := h p hp
  exact pairInv_lost h0 hn hc ht

/-- Taking a message keeps the invariant. -/
theorem streamInv_consume {message : StreamMessage}
    {queue : List StreamMessage} (hq : w.phase = .connected (message :: queue))
    (h : StreamInv w) : StreamInv (w.consume message queue) := by
  have hpair : ∀ p ∈ w.runner.subscriptions, ∃ n, n ≤ closedCount p w.clock ∧
      Contiguous p w.runner n ∧ (w.runner.last p = none ∨ Tracks p w.runner n) ∧
      Feed p n (message :: queue) (closedCount p w.clock) := by
    intro p hp
    obtain ⟨n, hn, hc, he⟩ := h.pairs p hp
    rw [Expects, hq] at he
    exact ⟨n, hn, hc, he.1, he.2⟩
  unfold StreamWorld.consume
  rcases consume_cases message w.runner with ⟨err, herr⟩ | ⟨c, error, r, v, -, hw, hok⟩
  · rw [herr]
    cases err with
    | stream e =>
      refine ⟨h.reconnects, fun p hp => ?_⟩
      obtain ⟨n, hn, hc, -, -⟩ := hpair p hp
      exact ⟨n, hn, hc, trivial⟩
    | reconnect =>
      refine streamInv_lost h.reconnects fun p hp => ?_
      obtain ⟨n, hn, hc, ht, -⟩ := hpair p hp
      exact ⟨n, hn, hc, ht⟩
  · have hsub : (v.setLast c.pair c.openTimeMs).subscriptions = w.runner.subscriptions :=
      (writeStore_ok hw).1
    rw [hok]
    refine ⟨h.reconnects, fun p hp => ?_⟩
    obtain ⟨n, hn, hc, ht, hf⟩ := hpair p (hsub ▸ hp)
    obtain ⟨m, hc', ht', hf'⟩ := consume_feed hf hc ht hok
    refine ⟨m, hf'.le, hc', ?_⟩
    unfold Expects
    dsimp only
    split_ifs
    · exact ⟨ht', hf'⟩
    · trivial

/-- A backfill keeps the invariant: the pairs it serves are caught up with its server time. -/
theorem streamInv_backfill {x : Exchange} {client : BinancePublicRestClient} {t : ℤ}
    (hp : w.phase = .idle) (ht : w.clock ≤ t) (hc : x.Serves client w.clock t)
    (h : StreamInv w) : StreamInv { w.backfill client with clock := t } := by
  have hstep : ∀ p ∈ w.runner.subscriptions, InStep p w.runner w.clock := by
    intro p hps
    obtain ⟨n, hn, hcon, he⟩ := h.pairs p hps
    rw [Expects, hp] at he
    exact ⟨n, hn, hcon, he.1⟩
  unfold StreamWorld.backfill
  rcases hr : (_backfill client).call w.runner with ⟨r, v⟩
  obtain ⟨hsub, -, hall, hok⟩ := backfill_served hc hstep hr
  cases r with
  | error e =>
    refine ⟨h.reconnects, fun p hps => ?_⟩
    obtain ⟨n, hn, hcon⟩ := hall p (hsub ▸ hps)
    exact ⟨n, hn.trans (closedCount_mono p ht), hcon, trivial⟩
  | ok total =>
    refine ⟨h.reconnects, fun p hps => ?_⟩
    rcases hok total rfl p (hsub ▸ hps) with ⟨hcon, htr⟩ | ⟨hnone, hsame⟩
    · exact ⟨_, closedCount_mono p ht, hcon, .inr ⟨htr, rfl⟩⟩
    · obtain ⟨n, hn, hcon⟩ := hall p (hsub ▸ hps)
      exact ⟨n, hn.trans (closedCount_mono p ht), hcon, .inl (hsame.2.trans hnone)⟩

/-- At a seamless connection the run ends with the last candle that is closed. -/
theorem pairInv_connect {p : Symbol × Interval} {s : Option ℤ}
    (hp : w.phase = .ready s) (hs : Seamless p w) (h : PairInv p w) :
    PairInv p { w with phase := .connected [] } := by
  obtain ⟨n, hn, hc, he⟩ := h
  -- for a pair that has not been heard of, being up to date is all that is needed
  have hfresh : w.runner.last p = none → PairInv p { w with phase := .connected [] } := by
    intro hnone
    have hup : UpToDate p w := by
      unfold Seamless at hs
      rw [hnone] at hs
      split at hs
      · contradiction
      · exact hs
    exact ⟨_, le_rfl, ⟨fun k hk => (hc.1 k hk).trans_le hn, hup⟩, .inl hnone, rfl⟩
  rw [Expects, hp] at he
  cases s with
  | none => exact hfresh he
  | some time =>
    rcases he with hnone | ⟨htr, htime⟩
    · exact hfresh hnone
    · have hlast : ∃ o, w.runner.last p = some o := by
        rcases htr with h | ⟨m, -, h, -⟩
        · exact ⟨_, h⟩
        · exact ⟨_, h⟩
      obtain ⟨o, ho⟩ := hlast
      unfold Seamless at hs
      rw [hp, ho] at hs
      exact ⟨n, hn, hc, .inr htr, htime.trans hs.symm⟩

/-- One step of a seamless run. -/
theorem streamInv_step {x : Exchange} {v : StreamWorld} (hstep : SeamlessStep x v w)
    (h : StreamInv v) : StreamInv w := by
  obtain ⟨hstep, hopen⟩ := hstep
  cases hstep with
  | @wait t ht hq =>
    refine ⟨h.reconnects, fun p hp => ?_⟩
    obtain ⟨n, hn, hc, he⟩ := h.pairs p hp
    refine ⟨n, hn.trans (closedCount_mono p ht), hc, ?_⟩
    unfold Expects at he ⊢
    cases hphase : v.phase with
    | connected queue => exact (hq queue hphase).elim
    | idle => rwa [hphase] at he
    | ready s =>
      rw [hphase] at he
      cases s <;> exact he
    | finished => trivial
    | failed e => trivial
  | @deliver t queue news hq ht hnews =>
    refine ⟨h.reconnects, fun p hp => ?_⟩
    obtain ⟨n, hn, hc, he⟩ := h.pairs p hp
    rw [Expects, hq] at he
    have hmono := closedCount_mono p ht
    have hf := he.2.append (feed_closings news (hnews.2 p hp))
    rw [show closedCount p v.clock + (closedCount p t - closedCount p v.clock) = closedCount p t by
      omega] at hf
    exact ⟨n, hn.trans hmono, hc, he.1, hf⟩
  | @update queue c hq hclosed htime =>
    refine ⟨h.reconnects, fun p hp => ?_⟩
    obtain ⟨n, hn, hc, he⟩ := h.pairs p hp
    rw [Expects, hq] at he
    refine ⟨n, hn, hc, he.1, he.2.append ?_⟩
    rw [Feed]
    split
    · rename_i hpair
      subst hpair
      refine ⟨htime, ?_⟩
      rw [hclosed]
      rfl
    · rfl
  | @notice queue message hq hm =>
    refine ⟨h.reconnects, fun p hp => ?_⟩
    obtain ⟨n, hn, hc, he⟩ := h.pairs p hp
    rw [Expects, hq] at he
    refine ⟨n, hn, hc, he.1, he.2.append ?_⟩
    cases message with
    | kline c => exact (hm c rfl).elim
    | serverShutdown => rfl
    | invalid e => rfl
  | start hp hr =>
    refine ⟨h.reconnects, fun p hps => ?_⟩
    obtain ⟨n, hn, hc, he⟩ := h.pairs p hps
    rw [Expects, hp] at he
    exact ⟨n, hn, hc, he.2 hr⟩
  | backfill hp hr ht hc => exact streamInv_backfill hp ht hc h
  | connect hp =>
    exact ⟨h.reconnects, fun p hps => pairInv_connect hp (hopen _ hp rfl p hps) (h.pairs p hps)⟩
  | @refuse s hp =>
    refine streamInv_lost h.reconnects fun p hps => ?_
    obtain ⟨n, hn, hc, he⟩ := h.pairs p hps
    rw [Expects, hp] at he
    refine ⟨n, hn, hc, ?_⟩
    cases s with
    | none => exact .inl he
    | some time => exact he.imp_right And.left
  | receive hq => exact streamInv_consume hq h
  | drop hq =>
    refine streamInv_lost h.reconnects fun p hps => ?_
    obtain ⟨n, hn, hc, he⟩ := h.pairs p hps
    rw [Expects, hq] at he
    exact ⟨n, hn, hc, he.1⟩

theorem streamInv_fresh (hw : w.Fresh) (hstore : ∀ p ∈ w.runner.subscriptions,
      NoGap p w.runner.store ∧ HoldsPast p w.runner.store w.clock) : StreamInv w := by
  obtain ⟨hphase, hrec, hlast⟩ := hw
  refine ⟨hrec.ge, fun p hp => ?_⟩
  obtain ⟨hgap, hpast⟩ := hstore p hp
  obtain ⟨n, hn, hc⟩ := contiguous_of_noGap hgap hpast
  refine ⟨n, hn, hc, ?_⟩
  rw [Expects, hphase]
  exact ⟨.inl (hlast p), fun _ => hlast p⟩

/-- An exchange on which the price never moves. -/
def flatExchange : Exchange where
  candle p k := ⟨Candle.flat p.1 p.2 (k * p.2.milliseconds) "100",
    Candle.postInit_flat p.1 (mul_nonneg (Int.natCast_nonneg k) p.2.milliseconds_pos.le)
      (Int.mul_emod_left _ _)⟩
  pair_eq _ _ := rfl
  open_eq _ _ := rfl
  closed _ _ := rfl

/-- A client whose requests all succeed at one time. -/
def flatClient (time : ℤ) : BinancePublicRestClient where
  serverTime := .ok time
  klines p limit startTime endTime := .ok (flatExchange.klines time p limit startTime endTime)

theorem flatClient_serves (time : ℤ) : flatExchange.Serves (flatClient time) time time where
  serverTime _ h := (Except.ok.inj h).symm
  klines _ _ _ _ _ h := ⟨time, le_rfl, le_rfl, (Except.ok.inj h).symm⟩

def handoffPair : Symbol × Interval := (.btcusdt, .m15)

def handoffCandle (k : ℕ) : StreamMessage := .kline (flatExchange.candle handoffPair k)

/-- A runner of one pair with an empty store. -/
def handoffStart : StreamWorld where
  clock := 900000
  runner := { subscriptions := [handoffPair], maxReconnects := 2, store := .empty, lastOpen := .empty }
  maxMessages := 100

/-- The first candle is stored, then the connection is lost. -/
def handoffLost : StreamWorld :=
  ({ handoffStart with
    clock := 1800000, phase := .connected [handoffCandle 1] }.consume (handoffCandle 1) []).lost

/-- One candle closes after the backfill read the server time, the next one is delivered. -/
def handoffEnd : StreamWorld :=
  { handoffLost.backfill (flatClient 1800000) with
    clock := 3600000, phase := .connected [handoffCandle 3] }.consume (handoffCandle 3) []

theorem handoff_closings {s t : ℤ} {k : ℕ} (hs : closedCount handoffPair s = k)
    (ht : closedCount handoffPair t = k + 1) :
    flatExchange.Closings [handoffPair] s t [flatExchange.candle handoffPair k] := by
  constructor
  · intro c hc
    rw [List.mem_singleton] at hc
    rw [hc, List.mem_singleton]
    exact flatExchange.pair_eq _ _
  · intro p hp
    rw [List.mem_singleton] at hp
    rw [hp, hs, ht, Nat.add_sub_cancel_left]
    simp [flatExchange.pair_eq]

theorem handoffStart_fresh : handoffStart.Fresh := ⟨rfl, rfl, fun _ => rfl⟩

theorem handoffStart_noGap : ∀ p ∈ handoffStart.runner.subscriptions,
    NoGap p handoffStart.runner.store ∧ HoldsPast p handoffStart.runner.store handoffStart.clock := by
  intro p _
  constructor
  · rintro a b ⟨c, hc, -⟩
    cases hc
  · rintro k ⟨c, hc, -⟩
    cases hc

theorem handoffLost_reached :
    Relation.ReflTransGen (SeamlessStep flatExchange) handoffStart handoffLost := by
  have hup : UpToDate handoffPair { handoffStart with phase := .ready none } := by
    rintro a k ⟨c, hc, -⟩
    cases hc
  refine .head ⟨.start rfl rfl, nofun⟩ ?_
  refine .head ⟨.connect rfl, ?_⟩ ?_
  · intro s hs _ p hp
    rw [List.mem_singleton.mp hp]
    exact hup
  refine .head ⟨.deliver (t := 1800000) rfl (by decide) (handoff_closings (k := 1) rfl rfl), nofun⟩ ?_
  refine .head ⟨.receive rfl, nofun⟩ ?_
  exact .single ⟨.drop rfl, nofun⟩

end TradingLab
