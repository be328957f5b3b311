import TradingLab.Data.Stream

/-!
# Batches of stored candles

A batch is written candle by candle in one transaction. A candle that is still open
may be replaced, also by a later candle of the same batch; a closed one stays.
-/

namespace TradingLab

open Method

namespace CandleStore

def maxBatchSize : ℕ := 100000

/-- A write that raises; an integer that is too large for its column escapes. -/
inductive WriteError where
  | storage (error : StorageError)
  | overflow
deriving Repr, DecidableEq

def Storable (c : Candle) : Prop :=
  c.openTimeMs < 2 ^ 63 ∧ c.closeTimeMs < 2 ^ 63 ∧ c.tradeCount < 2 ^ 63

instance (c : Candle) : Decidable (Storable c) := by
  unfold Storable
  infer_instance

def _write (candle : Candle) : Method CandleStore WriteError WriteResult := do
  Method.check (raiseIf (¬ Storable candle) .overflow)
  Method.zoom id (fun t _ => t) .storage (write candle)

/-- The candles of a batch, one after the other. -/
def _writeEach : List Candle → Method CandleStore WriteError (List WriteResult)
  | [] => pure []
  | candle :: candles => do
      let result ← _write candle
      let results ← _writeEach candles
      return result :: results

def writeMany (candles : List Candle) : Method CandleStore WriteError (List WriteResult) := do
  Method.check (raiseIf (candles.length < 1 ∨ maxBatchSize < candles.length)
    (.storage ⟨"Candle batch size is invalid"⟩))
  Method.atomic (_writeEach candles)

inductive Call where
  | write (candle : Candle)
  | writeMany (candles : List Candle)

namespace Call

def perform : Call → Method CandleStore WriteError Unit
  | write candle => do
      let _ ← Method.atomic (_write candle)
      return ()
  | writeMany candles => do
      let _ ← CandleStore.writeMany candles
      return ()

def candles : Call → List Candle
  | write candle => [candle]
  | writeMany candles => candles

end Call

section
variable {s t : CandleStore}

theorem _write_cases (c : Candle) (s : CandleStore) :
    (∃ e, (_write c).call s = (.error e, s)) ∨ ∃ r, (_write c).call s = (.ok r, s.put c) ∧
      ∀ row, s.find? c.key = some row → row.isClosed = true → row = c := by
  unfold _write
  rw [call_bind, call_check]
  by_cases hstorable : Storable c
  · rw [raiseIf_neg (not_not.mpr hstorable)]
    dsimp only
    rw [call_zoom]
    dsimp only [id]
    rcases write_cases c s with ⟨e, he⟩ | ⟨r, hr, hopen⟩ | ⟨hr, hsame⟩
    · rw [he]
      exact .inl ⟨_, rfl⟩
    · rw [hr]
      exact .inr ⟨r, rfl, fun row hrow hclosed => (hopen row hrow hclosed).elim⟩
    · rw [hr]
      refine .inr ⟨_, congrArg _ (Table.put_eq_self hsame).symm, fun row hrow _ => ?_⟩
      rw [hsame] at hrow
      exact (Option.some.inj hrow).symm
  · rw [raiseIf_pos hstorable]
    exact .inl ⟨_, rfl⟩

theorem closed_put {c row : Candle} {k : (Symbol × Interval) × ℤ}
    (hopen : ∀ row, s.find? c.key = some row → row.isClosed = true → row = c)
    (hrow : s.find? k = some row) (hclosed : row.isClosed = true) :
    (s.put c).find? k = some row := by
  by_cases hk : c.key = k
  · subst hk
    rw [hopen row hrow hclosed, Table.find?_put_self]
  · rw [Table.find?_put_ne hk, hrow]

/-- What a batch that returned leaves: its last candle of every key, and every closed row. -/
structure Applied (cs : List Candle) (s t : CandleStore) : Prop where
  find : ∀ k, t.find? k = (cs.reverse.find? fun c => c.key = k).or (s.find? k)
  closed : ∀ k row, s.find? k = some row → row.isClosed = true → t.find? k = some row
  keys : (∀ c ∈ cs, (s.find? c.key).isSome = true) →
    t.rows.map Candle.key = s.rows.map Candle.key

theorem applied_writeEach {cs : List Candle} {rs : List WriteResult}
    (h : (_writeEach cs).call s = (.ok rs, t)) : Applied cs s t := by
  induction cs generalizing s rs with
  | nil =>
    cases h
    exact ⟨fun _ => rfl, fun _ _ hrow _ => hrow, fun _ => rfl⟩
  | cons c cs ih =>
    rw [_writeEach, call_bind_eq_ok] at h
    obtain ⟨r, s', hwrite, h⟩ := h
    rw [call_bind_eq_ok] at h
    obtain ⟨rs', t', hrest, h⟩ := h
    cases h
    rcases _write_cases c s with ⟨e, he⟩ | ⟨r', hr, hopen⟩
    · rw [he] at hwrite
      cases hwrite
    rw [hr] at hwrite
    cases hwrite
    have hrest := ih hrest
    refine ⟨fun k => ?_, fun k row hrow hclosed => ?_, fun hkeys => ?_⟩
    · rw [hrest.find, List.reverse_cons, List.find?_append, Option.or_assoc]
      congr 1
      by_cases hk : c.key = k
      · subst hk
        simp
      · rw [Table.find?_put_ne hk]
        simp [hk]
    · exact hrest.closed k row (closed_put hopen hrow hclosed) hclosed
    · have hput := Table.keys_put (hkeys c List.mem_cons_self)
      rw [hrest.keys fun d hd => ?_, hput]
      by_cases hk : c.key = d.key
      · rw [← hk, Table.find?_put_self]
        rfl
      · rw [Table.find?_put_ne hk]
        exact hkeys d (List.mem_cons_of_mem _ hd)

theorem perform_cases (c : Call) (s : CandleStore) : (∃ e, c.perform.call s = (.error e, s)) ∨
    ∃ t, c.perform.call s = (.ok (), t) ∧ Applied c.candles s t := by
  cases c with
  | write candle =>
    unfold Call.perform
    rw [call_bind, call_atomic]
    rcases _write_cases candle s with ⟨e, he⟩ | ⟨r, hr, -⟩
    · rw [he]
      exact .inl ⟨e, rfl⟩
    · rw [hr]
      have hwrite : (_writeEach [candle]).call s = (.ok [r], Table.put s candle) := by
        rw [_writeEach, call_bind, hr]
        rfl
      exact .inr ⟨_, rfl, applied_writeEach hwrite⟩
  | writeMany candles =>
    unfold Call.perform writeMany
    rw [call_bind, call_bind, call_check]
    by_cases hsize : candles.length < 1 ∨ maxBatchSize < candles.length
    · rw [raiseIf_pos hsize]
      exact .inl ⟨_, rfl⟩
    · rw [raiseIf_neg hsize]
      dsimp only
      rw [call_atomic]
      rcases h : (_writeEach candles).call s with ⟨x, t⟩
      cases x with
      | error e => exact .inl ⟨e, rfl⟩
      | ok rs => exact .inr ⟨t, rfl, applied_writeEach h⟩

theorem Applied.again {cs : List Candle} {u : CandleStore} (h : Applied cs s t)
    (h' : Applied cs t u) : u = t := by
  refine Table.eq_of_find? (h'.keys fun c hc => ?_) fun k => ?_
  · rw [h.find]
    have hsome : (cs.reverse.find? fun d => d.key = c.key).isSome = true := by
      rw [List.find?_isSome]
      exact ⟨c, List.mem_reverse.mpr hc, decide_eq_true rfl⟩
    obtain ⟨d, hd⟩ := Option.isSome_iff_exists.mp hsome
    rw [hd]
    rfl
  · rw [h'.find, h.find, ← Option.or_assoc, Option.or_self]

end

structure Monotone (c : Call) (t : CandleStore) : Prop where
  rejected : ¬ c.perform.Returns t → c.perform.after t = t
  applied : c.perform.Returns t → Applied c.candles t (c.perform.after t)
  again : c.perform.Returns t → c.perform.after (c.perform.after t) = c.perform.after t

theorem monotone_perform (c : Call) (t : CandleStore) : Monotone c t := by
  rcases perform_cases c t with ⟨e, he⟩ | ⟨u, hu, happlied⟩
  · have hraised : ¬ c.perform.Returns t := by
      rintro ⟨a, ha⟩
      rw [he] at ha
      cases ha
    exact ⟨fun _ => congrArg Prod.snd he, fun h => (hraised h).elim, fun h => (hraised h).elim⟩
  · have hafter : c.perform.after t = u := congrArg Prod.snd hu
    refine ⟨fun h => (h ⟨(), congrArg Prod.fst hu⟩).elim, fun _ => hafter ▸ happlied, fun _ => ?_⟩
    rw [hafter]
    rcases perform_cases c u with ⟨e, he⟩ | ⟨v, hv, happlied'⟩
    · exact congrArg Prod.snd he
    · exact (congrArg Prod.snd hv).trans (happlied.again happlied')

/-- **Monotone store.** After every run of calls a key has one row, every row that was closed is as
it was, and the next call applies its whole batch or nothing, and changes nothing again. -/
theorem candleStore_monotone (s : CandleStore) (calls : List Call) :
    let t := Method.run Call.perform calls s
    (t.rows.map Candle.key).Nodup ∧
      (∀ k row, s.find? k = some row → row.isClosed = true → t.find? k = some row) ∧
        ∀ c, Monotone c t := by
  refine ⟨Table.nodup _, fun k row hrow hclosed => ?_, fun c => monotone_perform c _⟩
  refine Method.run_invariant (I := fun t : CandleStore => t.find? k = some row) hrow
    (fun c t ht => ?_) calls
  by_cases hreturns : c.perform.Returns t
  · exact ((monotone_perform c t).applied hreturns).closed k row ht hclosed
  · rw [(monotone_perform c t).rejected hreturns]
    exact ht

theorem valid_sampleHour : (Candle.flat .btcusdt .h1 0 "100").postInit = .ok () := by decide

def sampleHour : Candle := ⟨_, valid_sampleHour⟩

def sampleOpened : Candle := ⟨{ sampleHour.toFields with isClosed := false }, by decide +kernel⟩

def sampleStore : CandleStore :=
  Method.run Call.perform [.writeMany [sampleOpened, sampleHour]] Table.empty

/-- It is refused a change afterwards. -/
theorem candleStore_monotone_sample :
    sampleStore.find? sampleHour.key = some sampleHour ∧
      (Method.run Call.perform [.write sampleOpened] sampleStore).find? sampleHour.key =
        some sampleHour ∧
      Monotone (.writeMany [sampleOpened, sampleHour]) Table.empty := by
  have hstored : sampleStore.find? sampleHour.key = some sampleHour := by decide +kernel
  refine ⟨hstored, ?_, (candleStore_monotone Table.empty []).2.2 _⟩
  exact (candleStore_monotone sampleStore [.write sampleOpened]).2.1 _ _ hstored rfl

end CandleStore

end TradingLab
