import TradingLab.Production.Rules
import TradingLab.Production.AccountHistory

/-!
# Features and rules read the past

Cutting the bars cuts every feature and the signals of every rule. What is read by
time, the bars of a peer and the trailing volumes of the other symbols, is read at
times that are not later.
-/

namespace TradingLab.Production
open Series CutTo

section
variable {F : Type} (fl : Floats F) (cadence : ℤ)

@[simp] theorem valueAt_take {feature : List (Option F)} {k i : ℕ} (h : i < k) :
    valueAt (feature.take k) i = valueAt feature i := by
  unfold valueAt
  rw [List.getElem?_take_of_lt h]

theorem runStart_take (rows : List (Row F)) {k i : ℕ} (h : i < k) :
    runStart cadence (rows.take k) i = runStart cadence rows i := by
  induction i with
  | zero => rfl
  | succ i ih =>
    unfold runStart
    rw [List.getElem?_take_of_lt h, List.getElem?_take_of_lt (by omega), ih (by omega)]

theorem take_take_succ (rows : List (Row F)) {k i : ℕ} (h : i < k) :
    (rows.take k).take (i + 1) = rows.take (i + 1) := by
  rw [List.take_take, min_eq_left (by omega)]

theorem rollingAt_take (column : Column) (window : ℤ) (lag : ℕ) (statistic : Statistic F)
    (rows : List (Row F)) {k i : ℕ} (h : i < k) :
    rollingAt fl cadence (rows.take k) column window lag statistic i =
      rollingAt fl cadence rows column window lag statistic i := by
  have hlast : i - lag < k := by omega
  unfold rollingAt
  dsimp only
  rw [runStart_take cadence rows hlast, take_take_succ rows hlast]

theorem rolling_take (column : Column) (window : ℤ) (lag : ℕ) (statistic : Statistic F)
    (rows : List (Row F)) (k : ℕ) :
    CutTo k (rolling fl cadence rows column window lag statistic)
      (rolling fl cadence (rows.take k) column window lag statistic) := by
  unfold rolling
  apply after
  intro _
  exact indexedM fun i hi => rollingAt_take fl cadence column window lag statistic rows hi

theorem length_of_rolling {column : Column} {window : ℤ} {lag : ℕ} {statistic : Statistic F}
    {rows : List (Row F)} {out : List (Option F)}
    (h : rolling fl cadence rows column window lag statistic = .ok out) :
    out.length = rows.length := by
  unfold rolling at h
  rw [unit_bind_eq_ok] at h
  exact length_of_indexedM h.2

theorem isComplete_take (rows : List (Row F)) (window : ℤ) {k i : ℕ} (h : i < k) :
    isComplete cadence (rows.take k) i window = isComplete cadence rows i window := by
  unfold isComplete
  rw [take_take_succ rows h]

theorem laggedReturnAt_take (rows : List (Row F)) (lookback : ℤ) {k i : ℕ} (h : i < k) :
    laggedReturnAt fl cadence (rows.take k) lookback i = laggedReturnAt fl cadence rows lookback i := by
  have hprior : i - lookback.toNat < k := by omega
  unfold laggedReturnAt
  rw [List.getElem?_take_of_lt h, List.getElem?_take_of_lt hprior, isComplete_take cadence rows _ h]

theorem laggedReturn_take (lookback : ℤ) (rows : List (Row F)) (k : ℕ) :
    CutTo k (laggedReturn fl cadence rows lookback) (laggedReturn fl cadence (rows.take k) lookback) := by
  unfold laggedReturn
  apply after
  intro _
  exact indexed fun i hi => laggedReturnAt_take fl cadence rows lookback hi

theorem zscoreAt_take (rows : List (Row F)) (means stds : List (Option F)) {k i : ℕ} (h : i < k) :
    zscoreAt fl (rows.take k) (means.take k) (stds.take k) i = zscoreAt fl rows means stds i := by
  unfold zscoreAt
  rw [List.getElem?_take_of_lt h, valueAt_take h, valueAt_take h]

theorem zscoreVsLagged_take (window : ℤ) (rows : List (Row F)) (k : ℕ) :
    CutTo k (zscoreVsLagged fl cadence rows window) (zscoreVsLagged fl cadence (rows.take k) window) := by
  unfold zscoreVsLagged
  apply bind (rolling_take fl cadence _ _ _ _ rows k)
  intro means
  apply bind (rolling_take fl cadence _ _ _ _ rows k)
  intro stds
  exact indexed fun i hi => zscoreAt_take fl rows means stds hi

section
variable (candidate : Candidate)

variable {k i : ℕ}

theorem crossAt_take (fast slow : List (Option F)) (h : i < k) :
    crossAt fl (fast.take k) (slow.take k) i = crossAt fl fast slow i := by
  cases i with
  | zero => rfl
  | succ i =>
    have hbefore : i < k := by omega
    simp only [crossAt, valueAt_take h, valueAt_take hbefore]

theorem trendCrossover_causal : Causal (trendCrossover fl candidate cadence) := by
  intro rows k
  unfold trendCrossover
  apply after
  intro fastWindow
  apply bind (rolling_take fl cadence _ _ _ _ rows k)
  intro fast
  apply after
  intro slowWindow
  apply bind (rolling_take fl cadence _ _ _ _ rows k)
  intro slow
  exact indexed fun i hi => crossAt_take fl fast slow hi

theorem breakoutAt_take (rows : List (Row F)) (buffer : F) (high low : List (Option F))
    (h : i < k) :
    breakoutAt fl (rows.take k) buffer (high.take k) (low.take k) i =
      breakoutAt fl rows buffer high low i := by
  unfold breakoutAt
  rw [List.getElem?_take_of_lt h, valueAt_take h, valueAt_take h]

theorem breakoutChannel_causal : Causal (breakoutChannel fl candidate cadence) := by
  intro rows k
  unfold breakoutChannel
  apply after
  intro entryWindow
  apply bind (rolling_take fl cadence _ _ _ _ rows k)
  intro high
  apply after
  intro exitWindow
  apply bind (rolling_take fl cadence _ _ _ _ rows k)
  intro low
  apply after
  intro buffer
  exact indexed fun i hi => breakoutAt_take fl rows buffer high low hi

theorem trendOkAt_take (rows : List (Row F)) (laggedMa200 : Option (List (Option F))) (h : i < k) :
    trendOkAt fl (rows.take k) (laggedMa200.map (·.take k)) i = trendOkAt fl rows laggedMa200 i := by
  cases laggedMa200 with
  | none => rfl
  | some average =>
    have hbefore : i - 1 < k := by omega
    simp only [Option.map_some, trendOkAt]
    rw [valueAt_take h, List.getElem?_take_of_lt hbefore]

theorem meanReversionAt_take (rows : List (Row F)) (entryZ exitZ : F) (z : List (Option F))
    (laggedMa200 : Option (List (Option F))) (h : i < k) :
    meanReversionAt fl (rows.take k) entryZ exitZ (z.take k) (laggedMa200.map (·.take k)) i =
      meanReversionAt fl rows entryZ exitZ z laggedMa200 i := by
  unfold meanReversionAt
  rw [valueAt_take h, trendOkAt_take fl rows laggedMa200 h]

theorem laggedMa200_take (rows : List (Row F))
    {f g : Option (List (Option F)) → Except CompileFailure (List (Option Signal))}
    (h : ∀ average, CutTo k (f average) (g (average.map (·.take k)))) :
    CutTo k (laggedMa200 fl candidate cadence rows >>= f)
      (laggedMa200 fl candidate cadence (rows.take k) >>= g) := by
  unfold laggedMa200
  split
  · intro ys hys
    rw [bind_eq_ok] at hys
    obtain ⟨average, haverage, hys⟩ := hys
    cases hrolling : rolling fl cadence rows .closes 200 1 .mean with
    | error e =>
      rw [hrolling] at haverage
      cases haverage
    | ok mean =>
      rw [hrolling] at haverage
      cases haverage
      rw [rolling_take fl cadence _ _ _ _ rows k mean hrolling]
      exact h (some mean) ys hys
  · exact h none

theorem meanReversion_causal : Causal (meanReversion fl candidate cadence) := by
  intro rows k
  unfold meanReversion
  apply after
  intro window
  apply bind (zscoreVsLagged_take fl cadence window rows k)
  intro z
  apply after
  intro entryZ
  apply after
  intro exitZ
  apply laggedMa200_take fl cadence candidate rows
  intro average
  exact indexed fun i hi => meanReversionAt_take fl rows entryZ exitZ z average hi

theorem confirmedAt_take (rows : List (Row F)) (column : Column) (threshold multiple : F)
    (ret average : List (Option F)) (h : i < k) :
    confirmedAt fl (rows.take k) column threshold multiple (ret.take k) (average.take k) i =
      confirmedAt fl rows column threshold multiple ret average i := by
  unfold confirmedAt
  rw [List.getElem?_take_of_lt h, valueAt_take h, valueAt_take h]

theorem confirmed_take (column : Column)
    (lookbackKey windowKey thresholdKey multipleKey : String) (rows : List (Row F)) (k : ℕ) :
    CutTo k (confirmed fl candidate cadence rows column lookbackKey windowKey thresholdKey multipleKey)
      (confirmed fl candidate cadence (rows.take k) column lookbackKey windowKey thresholdKey
        multipleKey) := by
  unfold confirmed
  apply after
  intro lookback
  apply bind (laggedReturn_take fl cadence lookback rows k)
  intro ret
  apply after
  intro window
  apply bind (rolling_take fl cadence _ _ _ _ rows k)
  intro average
  apply after
  intro threshold
  apply after
  intro multiple
  exact indexed fun i hi =>
    confirmedAt_take fl rows column threshold multiple ret average hi

theorem sessionAt_take (rows : List (Row F)) (threshold : F) (start last : ℤ)
    (ret : List (Option F)) (h : i < k) :
    sessionAt fl (rows.take k) threshold start last (ret.take k) i =
      sessionAt fl rows threshold start last ret i := by
  unfold sessionAt
  rw [List.getElem?_take_of_lt h, valueAt_take h]

theorem sessionTimeEffect_causal : Causal (sessionTimeEffect fl candidate cadence) := by
  intro rows k
  unfold sessionTimeEffect
  apply after
  intro lookback
  apply bind (laggedReturn_take fl cadence lookback rows k)
  intro ret
  apply after
  intro threshold
  apply after
  intro first
  apply after
  intro length
  apply after
  intro _
  exact indexed fun i hi => sessionAt_take fl rows threshold _ _ ret hi

theorem liquidityAt_take (floor : F) (ret ranks : List (Option F)) (h : i < k) :
    liquidityAt fl floor (ret.take k) (ranks.take k) i = liquidityAt fl floor ret ranks i := by
  unfold liquidityAt
  rw [valueAt_take h, valueAt_take h]

theorem liquidityConditionedEntry_take (rows : List (Row F))
    (liquidityPercentile : Option (List (Option F))) (k : ℕ) :
    CutTo k (liquidityConditionedEntry fl candidate cadence rows liquidityPercentile)
      (liquidityConditionedEntry fl candidate cadence (rows.take k)
        (liquidityPercentile.map (·.take k))) := by
  unfold liquidityConditionedEntry
  cases liquidityPercentile with
  | none =>
    intro out h
    cases h
  | some ranks =>
    dsimp only [Option.map_some]
    by_cases hlength : ranks.length = rows.length
    · have hcut : (ranks.take k).length = (rows.take k).length := by
        rw [List.length_take, List.length_take, hlength]
      rw [raiseIf_neg (not_not.mpr hlength), raiseIf_neg (not_not.mpr hcut), ok_bind, ok_bind]
      apply after
      intro lookback
      apply bind (laggedReturn_take fl cadence lookback rows k)
      intro ret
      apply after
      intro floor
      exact indexed fun i hi => liquidityAt_take fl floor ret ranks hi
    · intro out h
      rw [raiseIf_pos hlength] at h
      cases h

end

section
variable {s t : ℤ}

theorem rowAt_upTo (h : s ≤ t) (rows : List (Row F)) :
    rowAt (Series.upTo Row.time t rows) s = rowAt rows s := find?_upTo Row.time h rows

theorem peerReturnOver_upTo (hcadence : 0 ≤ cadence) {lookback : ℤ} (hlookback : 0 ≤ lookback)
    (h : s ≤ t) (peer : Bars F) :
    peerReturnOver fl cadence (peer.upTo t) lookback s = peerReturnOver fl cadence peer lookback s := by
  have hprior : s - lookback * cadence ≤ t := by
    have hspan := mul_nonneg hlookback hcadence
    omega
  have hall : (List.range (lookback + 1).toNat).all (fun k =>
        (rowAt (peer.upTo t).rows (s - k * cadence)).isSome) =
      (List.range (lookback + 1).toNat).all fun k => (rowAt peer.rows (s - k * cadence)).isSome := by
    congr 1
    funext k
    have hk : s - k * cadence ≤ t := by
      have hspan := mul_nonneg (Int.natCast_nonneg k) hcadence
      omega
    rw [Bars.upTo, rowAt_upTo hk]
  unfold peerReturnOver
  rw [hall, Bars.upTo, rowAt_upTo h, rowAt_upTo hprior]

theorem lookup_upTo (peers : List (String × Bars F)) (peer : String) :
    (peers.map fun p => (p.1, p.2.upTo t)).lookup peer = (peers.lookup peer).map (Bars.upTo t) := by
  induction peers with
  | nil => rfl
  | cons p peers ih =>
    rw [List.map_cons, List.lookup_cons, List.lookup_cons]
    cases hp : peer == p.1 with
    | true => rfl
    | false => exact ih

variable {rows : List (Row F)} {k : ℕ}

theorem peerReturn_upTo (hcadence : 0 ≤ cadence) {lookback : ℤ} (hlookback : 0 ≤ lookback)
    (hcut : Series.upTo Row.time t rows = rows.take k) (peers : List (String × Bars F)) (peer : String) :
    peerReturn fl cadence (rows.take k) (peers.map fun p => (p.1, p.2.upTo t)) peer lookback =
      (peerReturn fl cadence rows peers peer lookback).take k := by
  unfold peerReturn
  rw [lookup_upTo]
  cases peers.lookup peer with
  | none => exact List.map_take
  | some bars =>
    dsimp only [Option.map_some]
    rw [← List.map_take]
    apply List.map_congr_left
    intro row hrow
    rw [← hcut, mem_upTo] at hrow
    exact peerReturnOver_upTo fl cadence hcadence hlookback hrow.2 bars

theorem time_le_of_getElem? (hcut : Series.upTo Row.time t rows = rows.take k) {i : ℕ} {row : Row F}
    (hi : i < k) (h : rows[i]? = some row) : row.time ≤ t := by
  have hmem : row ∈ rows.take k := by
    rw [← List.getElem?_take_of_lt hi] at h
    exact List.mem_of_getElem? h
  rw [← hcut, mem_upTo] at hmem
  exact hmem.2

theorem leadLagAt_take {binding other : ProductionUniverseBinding}
    (hbinding : binding.effectiveBy t = other.effectiveBy t)
    (hcut : Series.upTo Row.time t rows = rows.take k) (symbol peer : String) (momentum : Bool)
    (threshold : F) (returns : List (Option F)) {i : ℕ} (h : i < k) :
    leadLagAt fl (rows.take k) other symbol peer momentum threshold (returns.take k) i =
      leadLagAt fl rows binding symbol peer momentum threshold returns i := by
  unfold leadLagAt
  rw [List.getElem?_take_of_lt h, valueAt_take h]
  cases hrow : rows[i]? with
  | none => rfl
  | some row =>
    have htime := time_le_of_getElem? hcut h hrow
    have hmember : ∀ name, other.isMember name row.time = binding.isMember name row.time :=
      fun _ => (ProductionUniverseBinding.isMember_congr htime hbinding).symm
    change (valueAt returns i >>= fun _ => _) = (valueAt returns i >>= fun _ => _)
    rw [hmember, hmember]

end

theorem cadenceMs_pos (timeframe : Timeframe) : 0 < timeframe.cadenceMs := by
  cases timeframe <;> decide

theorem one_le_of_integer {text : String} {n : ℤ} (h : integer fl text = .ok n) : 1 ≤ n := by
  unfold integer at h
  rw [bind_eq_ok] at h
  obtain ⟨x, hx, h⟩ := h
  rw [raiseIf_bind_eq_ok] at h
  obtain ⟨hwhole, h⟩ := h
  cases h
  have hfinite : fl.isFinite x = true := by
    unfold num at hx
    split at hx
    · cases hx
    · cases hx
    · dsimp only at hx
      split at hx
      · next hfinite =>
        cases hx
        exact hfinite
      · cases hx
    · cases hx
  rw [not_or, Bool.not_eq_false, Bool.not_eq_true] at hwhole
  exact fl.one_le_truncate x hfinite hwhole.1 hwhole.2

section
variable (candidate : Candidate) {t : ℤ} {binding other : ProductionUniverseBinding}

theorem leadLag_upTo (feed : Feed F) (hbinding : binding.effectiveBy t = other.effectiveBy t) {k : ℕ}
    (hcut : Series.upTo Row.time t feed.bars.rows = feed.bars.rows.take k) :
    CutTo k (leadLag fl candidate feed (some binding))
      (leadLag fl candidate (feed.upTo t) (some other)) := by
  have hrows : (feed.upTo t).bars.rows = feed.bars.rows.take k := hcut
  have hpeers : (feed.upTo t).peers = feed.peers.map fun p => (p.1, p.2.upTo t) := rfl
  have hsymbol : (feed.upTo t).bars.symbol = feed.bars.symbol := rfl
  have htimeframe : (feed.upTo t).bars.timeframe = feed.bars.timeframe := rfl
  unfold leadLag
  dsimp only
  rw [hrows, hpeers, hsymbol, htimeframe]
  apply after
  intro peer
  apply afterOk
  intro lag hlag
  apply after
  intro threshold
  apply after
  intro mode
  split
  · exact indexed fun _ _ => rfl
  · apply after
    intro _
    have hpositive : 0 ≤ lag := by
      unfold Candidate.integer at hlag
      rw [bind_eq_ok] at hlag
      obtain ⟨text, -, hlag⟩ := hlag
      have hone := one_le_of_integer fl hlag
      omega
    rw [peerReturn_upTo fl _ (cadenceMs_pos _).le hpositive hcut]
    exact indexed fun i hi =>
      leadLagAt_take fl hbinding hcut feed.bars.symbol peer _ threshold _ hi

/-- The signals of a rule up to a time depend on what is known then. -/
theorem signals_upTo (family : Family) (feed : Feed F) (liquidityPercentile : Option (List (Option F)))
    (hbinding : binding.effectiveBy t = other.effectiveBy t) {k : ℕ}
    (hcut : Series.upTo Row.time t feed.bars.rows = feed.bars.rows.take k) :
    CutTo k (signals fl candidate family feed liquidityPercentile (some binding))
      (signals fl candidate family (feed.upTo t) (liquidityPercentile.map (·.take k)) (some other)) := by
  have hrows : (feed.upTo t).bars.rows = feed.bars.rows.take k := hcut
  unfold signals
  dsimp only
  rw [hrows]
  cases family with
  | trendCrossover => exact trendCrossover_causal fl _ candidate _ k
  | breakoutChannel => exact breakoutChannel_causal fl _ candidate _ k
  | shortHorizonMeanReversion => exact meanReversion_causal fl _ candidate _ k
  | simpleStatisticalDeviation => exact meanReversion_causal fl _ candidate _ k
  | volumeConfirmedDirection => exact confirmed_take fl _ candidate _ _ _ _ _ _ k
  | priceVolumeInteraction => exact confirmed_take fl _ candidate _ _ _ _ _ _ k
  | tradeCountConfirmedDirection => exact confirmed_take fl _ candidate _ _ _ _ _ _ k
  | sessionTimeEffect => exact sessionTimeEffect_causal fl _ candidate _ k
  | liquidityConditionedEntry =>
    exact liquidityConditionedEntry_take fl _ candidate _ liquidityPercentile k
  | leadLag => exact leadLag_upTo fl candidate feed hbinding hcut
  | crashRebound => nofun
  | rangeCompressionBreakout => nofun

end

theorem stateFrom_take (held : Bool) (signals : List (Option Signal)) (k : ℕ) :
    stateFrom held (signals.take k) = (stateFrom held signals).take k := by
  induction signals generalizing held k with
  | nil => simp [stateFrom]
  | cons signal signals ih =>
    cases k with
    | zero => rfl
    | succ k => simp [stateFrom, ih]

theorem compiledBars_take (rows : List (Row F)) (signals : List (Option Signal)) (k : ℕ) :
    compiledBars fl (rows.take k) (signals.take k) = (compiledBars fl rows signals).take k := by
  unfold compiledBars
  rw [stateFrom_take, ← List.map_take]
  simp only [List.zip, List.take_zipWith]

theorem times_compiledBars (rows : List (Row F)) (signals : List (Option Signal)) :
    (compiledBars fl rows signals).map Bar.time <+: rows.map Row.time := by
  unfold compiledBars
  generalize signals.zip (stateFrom false signals) = states
  induction rows generalizing states with
  | nil => simp
  | cons row rows ih =>
    cases states with
    | nil => simp
    | cons state states =>
      rw [List.zip_cons_cons, List.map_cons, List.map_cons, List.map_cons, List.cons_prefix_cons]
      exact ⟨rfl, ih states⟩

variable {binding other : ProductionUniverseBinding} {t : ℤ}

/-- Compiled from what is known at a time, a series is the same up to then. -/
theorem compileCandidate_upTo {candidate : Candidate} {feed : Feed F}
    {liquidityPercentile : Option (List (Option F))} {fields : SeriesFields}
    (hascending : (feed.bars.rows.map Row.time).Pairwise (· < ·))
    (hbinding : binding.effectiveBy t = other.effectiveBy t)
    (h : compileCandidate fl candidate feed liquidityPercentile (some binding) = .ok fields) :
    compileCandidate fl candidate (feed.upTo t)
      (liquidityPercentile.map (·.take (countUpTo Row.time t feed.bars.rows))) (some other) =
        .ok (fields.upTo t) := by
  have hcut := upTo_eq_take Row.time hascending (t := t)
  unfold compileCandidate at h ⊢
  cases hfamily : Family.ofName? candidate.family with
  | none =>
    rw [hfamily] at h
    cases h
  | some family =>
    rw [hfamily] at h
    dsimp only at h ⊢
    cases hblocked : family.blocked? with
    | some reason =>
      rw [hblocked] at h
      cases h
    | none =>
      rw [hblocked] at h
      dsimp only at h ⊢
      rw [raiseIf_bind_eq_ok, raiseIf_bind_eq_ok, bind_eq_ok] at h
      obtain ⟨hstate, htimeframe, out, hout, h⟩ := h
      cases h
      have hsignals := signals_upTo fl candidate family feed liquidityPercentile hbinding hcut out hout
      rw [raiseIf_bind_eq_ok, raiseIf_bind_eq_ok, hsignals]
      refine ⟨hstate, htimeframe, ?_⟩
      have hrows : (feed.upTo t).bars.rows = feed.bars.rows.take _ := hcut
      rw [ok_bind, hrows, compiledBars_take,
        ← upTo_eq_take_of_prefix Row.time hascending (times_compiledBars fl _ out)]
      rfl

end

end TradingLab.Production
