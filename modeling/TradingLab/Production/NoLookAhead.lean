import TradingLab.Production.Causality

/-!
# No look-ahead

Two families of bars that agree up to a time, with universes that agree up to then,
give series that agree up to then, and simulations that agree up to then. What is
done at the open of a bar depends on the bars before it and on its open.
-/

namespace TradingLab.Production
open Series List

section
variable {F : Type} (fl : Floats F) (candidate : Candidate) (liquidityWindow : ℤ)

structure FeatureCaches {F : Type} (fl : Floats F) where
  entries : List (String × ProductionFeatureCache fl)
  distinct : (entries.map Prod.fst).Nodup

/-- The ranks that a family needs, by symbol. -/
def ranks (feeds : List (String × Feed F)) (binding : ProductionUniverseBinding) :
    Except CompileFailure (List (String × List (Option F))) :=
  if candidate.family = Family.liquidityConditionedEntry.name then
    liquidityPercentiles fl (feeds.map fun feed => (feed.1, feed.2.bars)) liquidityWindow binding
  else .ok []

/-- The series of a candidate for every symbol. -/
def compileFeeds (feeds : List (String × Feed F)) (binding : ProductionUniverseBinding) :
    Except CompileFailure (List (String × SeriesFields)) := do
  let percentile ← ranks fl candidate liquidityWindow feeds binding
  feeds.mapM fun (symbol, feed) => do
    let fields ← compileCandidate fl candidate feed (percentile.lookup symbol) (some binding)
    return (symbol, fields)

variable {fl}

def FeatureCaches.feeds (caches : FeatureCaches fl) : List (String × Feed F) :=
  caches.entries.map fun (symbol, cache) => (symbol, cache.feed)

def compileSeries (caches : FeatureCaches fl) (binding : ProductionUniverseBinding) :
    Except CompileFailure (List (String × SeriesFields)) :=
  compileFeeds fl candidate liquidityWindow caches.feeds binding

/-- The bars of all symbols and of their peers with an open time that is not later. -/
def FeatureCaches.upTo (t : ℤ) (caches : FeatureCaches fl) : List (String × Feed F) :=
  caches.feeds.map fun feed => (feed.1, feed.2.upTo t)

end

section
variable {F : Type} (fl : Floats F) {t : ℤ}

variable {s window : ℤ} {candidate : Candidate}

theorem lookup_upTo_label {β : Type} (h : s ≤ t) (entries : List (ℤ × β)) :
    (Series.upTo Prod.fst t entries).lookup s = entries.lookup s := by
  unfold Series.upTo
  induction entries with
  | nil => rfl
  | cons entry entries ih =>
    rw [lookup_cons]
    by_cases he : entry.1 ≤ t
    · rw [filter_cons_of_pos (by simpa using he), lookup_cons, ih]
    · have hne : (s == entry.1) = false := by
        rw [beq_eq_false_iff_ne]
        omega
      rw [filter_cons_of_neg (by simpa using he), ih, hne]

theorem trailingVolume_upTo {bars : Bars F} {volumes : List (ℤ × Option F)}
    (hascending : (bars.rows.map Row.time).Pairwise (· < ·))
    (h : trailingVolume fl window bars = .ok volumes) :
    trailingVolume fl window (bars.upTo t) = .ok (Series.upTo Prod.fst t volumes) := by
  have hcut := upTo_eq_take Row.time hascending (t := t)
  unfold trailingVolume at h ⊢
  rw [bind_eq_ok] at h
  obtain ⟨sums, hsums, h⟩ := h
  cases h
  have hlength := length_of_rolling fl _ hsums
  have hinitial : ((bars.rows.map Row.time).zip sums).map Prod.fst <+: bars.rows.map Row.time := by
    rw [map_fst_zip (by rw [length_map, hlength])]
  have hrows : (bars.upTo t).rows = bars.rows.take _ := hcut
  have htimeframe : (bars.upTo t).timeframe = bars.timeframe := rfl
  rw [hrows, htimeframe, rolling_take fl _ _ _ _ _ bars.rows _ sums hsums, ok_bind,
    upTo_eq_take_of_prefix Row.time hascending hinitial]
  simp only [zip, take_zipWith, map_take]
  rfl

theorem crossSection_upTo (h : s ≤ t) (members : List String)
    (trailing : List (String × List (ℤ × Option F))) :
    crossSection members (trailing.map fun entry => (entry.1, Series.upTo Prod.fst t entry.2)) s =
      crossSection members trailing s := by
  unfold crossSection
  rw [filterMap_map]
  congr 1
  funext entry
  simp only [Function.comp_apply, lookup_upTo_label h]

variable {binding other : ProductionUniverseBinding}

/-- The rank of a symbol at a time. -/
def rankAt (binding : ProductionUniverseBinding) (trailing : List (String × List (ℤ × Option F)))
    (symbol : String) (s : ℤ) : Option F :=
  if symbol ∈ binding.symbolsAt s then
    percentile fl (crossSection (binding.symbolsAt s) trailing s) symbol
  else none

theorem rankAt_upTo (h : s ≤ t) (hbinding : binding.effectiveBy t = other.effectiveBy t)
    (trailing : List (String × List (ℤ × Option F))) (symbol : String) :
    rankAt fl other (trailing.map fun entry => (entry.1, Series.upTo Prod.fst t entry.2)) symbol s =
      rankAt fl binding trailing symbol s := by
  unfold rankAt
  rw [crossSection_upTo h, ← ProductionUniverseBinding.symbolsAt_congr h hbinding]

variable {out : List (String × List (Option F))} {feeds : List (String × Feed F)}

theorem liquidityPercentiles_upTo {caches : List (String × Bars F)}
    (hdistinct : (caches.map Prod.fst).Nodup)
    (hascending : ∀ cache ∈ caches, (cache.2.rows.map Row.time).Pairwise (· < ·))
    (hbinding : binding.effectiveBy t = other.effectiveBy t)
    (h : liquidityPercentiles fl caches window binding = .ok out) :
    ∃ cut, liquidityPercentiles fl (caches.map fun cache => (cache.1, cache.2.upTo t)) window other =
        .ok cut ∧
      ∀ cache ∈ caches, cut.lookup cache.1 =
        (out.lookup cache.1).map (·.take (countUpTo Row.time t cache.2.rows)) := by
  unfold liquidityPercentiles at h ⊢
  rw [raiseIf_bind_eq_ok, bind_eq_ok] at h
  obtain ⟨hlength, trailing, htrailing, h⟩ := h
  cases h
  rw [length_map, raiseIf_neg hlength, ok_bind, mapM_map (u := fun cache : String × Bars F =>
      (cache.1, cache.2.upTo t))
    (v := fun entry : String × List (ℤ × Option F) => (entry.1, Series.upTo Prod.fst t entry.2))
    ?_ htrailing, ok_bind]
  swap
  · intro cache hcache entry hentry
    rw [bind_eq_ok] at hentry
    obtain ⟨volumes, hvolumes, hentry⟩ := hentry
    cases hentry
    dsimp only
    rw [trailingVolume_upTo fl (hascending cache hcache) hvolumes, ok_bind]
    rfl
  refine ⟨_, rfl, ?_⟩
  intro cache hcache
  rw [map_map]
  have hwhole := lookup_map_of_mem (f := fun cache : String × Bars F =>
    cache.2.rows.map fun row => rankAt fl binding trailing cache.1 row.time) hdistinct hcache
  have hpart := lookup_map_of_mem (f := fun cache : String × Bars F =>
    (cache.2.upTo t).rows.map fun row => rankAt fl other (trailing.map fun entry =>
      (entry.1, Series.upTo Prod.fst t entry.2)) cache.1 row.time) hdistinct hcache
  refine hpart.trans ?_
  refine Eq.trans ?_ (congrArg (Option.map (·.take (countUpTo Row.time t cache.2.rows))) hwhole.symm)
  rw [Option.map_some, ← map_take, ← upTo_eq_take Row.time (hascending cache hcache)]
  congr 1
  apply map_congr_left
  intro row hrow
  exact rankAt_upTo fl (mem_upTo Row.time |>.mp hrow).2 hbinding trailing cache.1

theorem ranks_upTo (hdistinct : (feeds.map Prod.fst).Nodup)
    (hascending : ∀ feed ∈ feeds, (feed.2.bars.rows.map Row.time).Pairwise (· < ·))
    (hbinding : binding.effectiveBy t = other.effectiveBy t)
    (h : ranks fl candidate window feeds binding = .ok out) :
    ∃ cut, ranks fl candidate window (feeds.map fun feed => (feed.1, feed.2.upTo t)) other = .ok cut ∧
      ∀ feed ∈ feeds, cut.lookup feed.1 =
        (out.lookup feed.1).map (·.take (countUpTo Row.time t feed.2.bars.rows)) := by
  unfold ranks at h ⊢
  split at h
  · next hfamily =>
    rw [if_pos hfamily, map_map]
    have hcut := liquidityPercentiles_upTo fl (by rwa [map_map]) ?_ hbinding h
    · obtain ⟨cut, hcut, hlookup⟩ := hcut
      rw [map_map] at hcut
      refine ⟨cut, hcut, ?_⟩
      intro feed hfeed
      exact hlookup (feed.1, feed.2.bars) (mem_map_of_mem hfeed)
    · intro cache hcache
      obtain ⟨feed, hfeed, rfl⟩ := mem_map.mp hcache
      exact hascending feed hfeed
  · next hfamily =>
    cases h
    rw [if_neg hfamily]
    exact ⟨[], rfl, fun _ _ => rfl⟩

theorem compileFeeds_upTo
    {out : List (String × SeriesFields)} (hdistinct : (feeds.map Prod.fst).Nodup)
    (hascending : ∀ feed ∈ feeds, (feed.2.bars.rows.map Row.time).Pairwise (· < ·))
    (hbinding : binding.effectiveBy t = other.effectiveBy t)
    (h : compileFeeds fl candidate window feeds binding = .ok out) :
    compileFeeds fl candidate window (feeds.map fun feed => (feed.1, feed.2.upTo t)) other =
      .ok (out.map fun entry => (entry.1, entry.2.upTo t)) := by
  unfold compileFeeds at h ⊢
  rw [bind_eq_ok] at h
  obtain ⟨percentile, hpercentile, h⟩ := h
  obtain ⟨cut, hcut, hlookup⟩ := ranks_upTo fl hdistinct hascending hbinding hpercentile
  rw [hcut, ok_bind]
  refine mapM_map ?_ h
  intro feed hfeed entry hentry
  rw [bind_eq_ok] at hentry
  obtain ⟨fields, hfields, hentry⟩ := hentry
  cases hentry
  dsimp only
  rw [hlookup feed hfeed, compileCandidate_upTo fl (hascending feed hfeed) hbinding hfields, ok_bind]
  rfl

variable {fl}

/-- Series of two families of bars that agree up to a time agree up to then. -/
theorem compileSeries_congr {caches others : FeatureCaches fl}
    {out outs : List (String × SeriesFields)} (hcaches : caches.upTo t = others.upTo t)
    (hbinding : binding.effectiveBy t = other.effectiveBy t)
    (hout : compileSeries candidate window caches binding = .ok out)
    (houts : compileSeries candidate window others other = .ok outs) :
    (out.map fun entry => (entry.1, entry.2.upTo t)) = outs.map fun entry => (entry.1, entry.2.upTo t) := by
  have hsound : ∀ family : FeatureCaches fl, (family.feeds.map Prod.fst).Nodup ∧
      ∀ feed ∈ family.feeds, (feed.2.bars.rows.map Row.time).Pairwise (· < ·) := by
    intro family
    constructor
    · unfold FeatureCaches.feeds
      rw [map_map]
      exact family.distinct
    · intro feed hfeed
      obtain ⟨entry, -, rfl⟩ := mem_map.mp hfeed
      exact entry.2.bars.ascending
  have hfirst := compileFeeds_upTo fl (hsound caches).1 (hsound caches).2 hbinding hout
  have hself : other.effectiveBy t = other.effectiveBy t := rfl
  have hsecond := compileFeeds_upTo fl (hsound others).1 (hsound others).2 hself houts
  have hagree : (caches.feeds.map fun feed => (feed.1, feed.2.upTo t)) =
      others.feeds.map fun feed => (feed.1, feed.2.upTo t) := hcaches
  rw [hagree, hsecond] at hfirst
  exact (Except.ok.inj hfirst).symm

end

theorem keys_of_compileSeries {F : Type} {fl : Floats F} {candidate : Candidate} {window : ℤ}
    {caches : FeatureCaches fl} {binding : ProductionUniverseBinding} {out : List (String × SeriesFields)}
    (h : compileSeries candidate window caches binding = .ok out) : (out.map Prod.fst).Nodup := by
  unfold compileSeries compileFeeds at h
  rw [bind_eq_ok] at h
  obtain ⟨percentile, -, h⟩ := h
  have hkeys := map_of_mapM (u := Prod.fst) (v := Prod.fst) (fun feed _ entry hentry => by
    rw [bind_eq_ok] at hentry
    obtain ⟨fields, -, hentry⟩ := hentry
    cases hentry
    rfl) h
  rw [hkeys]
  unfold FeatureCaches.feeds
  rw [map_map]
  exact caches.distinct

theorem snd_eq_of_nodup {β : Type} {entries : List (String × β)} (h : (entries.map Prod.fst).Nodup)
    {key : String} {a b : β} (ha : (key, a) ∈ entries) (hb : (key, b) ∈ entries) : a = b :=
  congrArg Prod.snd (List.inj_on_of_nodup_map h ha hb rfl)

theorem upTo_eq_of_mem {t : ℤ} {out outs : List (String × SeriesFields)}
    (hdistinct : (outs.map Prod.fst).Nodup)
    (h : (out.map fun entry => (entry.1, entry.2.upTo t)) = outs.map fun entry => (entry.1, entry.2.upTo t))
    {symbol : String} {fields again : SeriesFields} (hfields : (symbol, fields) ∈ out)
    (hagain : (symbol, again) ∈ outs) : fields.upTo t = again.upTo t := by
  have hcut : (symbol, fields.upTo t) ∈ outs.map fun entry => (entry.1, entry.2.upTo t) := by
    rw [← h]
    exact mem_map_of_mem hfields
  have hother : (symbol, again.upTo t) ∈ outs.map fun entry => (entry.1, entry.2.upTo t) :=
    mem_map_of_mem hagain
  refine snd_eq_of_nodup ?_ hcut hother
  rw [map_map]
  exact hdistinct

/-- No look-ahead. Compiled and simulated from bars that agree up to a time, under universes that agree
up to then, a candidate has the same states, marks, fills and exits up to then. What is done at the open
of a bar is the same after the same bars, with the same open, under the same snapshots. -/
theorem no_look_ahead {F : Type} (fl : Floats F) {D : Type} (A : Arithmetic D)
    (policy : ProductionCostPolicy) (stress : Bool) {candidate : Candidate} {liquidityWindow : ℤ}
    {caches others : FeatureCaches fl} {binding other : ProductionUniverseBinding}
    {out outs : List (String × SeriesFields)}
    (hout : compileSeries candidate liquidityWindow caches binding = .ok out)
    (houts : compileSeries candidate liquidityWindow others other = .ok outs) :
    (∀ t, caches.upTo t = others.upTo t → binding.effectiveBy t = other.effectiveBy t →
      (out.map fun entry => (entry.1, entry.2.upTo t)) =
          (outs.map fun entry => (entry.1, entry.2.upTo t)) ∧
        ∀ symbol (series again : ProductionSeries), (symbol, series.toSeriesFields) ∈ out →
          (symbol, again.toSeriesFields) ∈ outs →
          SameUpTo A policy stress t binding other series again) ∧
    ∀ symbol (series again : ProductionSeries), (symbol, series.toSeriesFields) ∈ out →
      (symbol, again.toSeriesFields) ∈ outs → ∀ n m bar next, series.scoredBars[n]? = some bar →
      again.scoredBars[m]? = some next → next.time = bar.time → next.opening = bar.opening →
      caches.upTo (bar.time - 1) = others.upTo (bar.time - 1) →
      binding.effectiveBy bar.time = other.effectiveBy bar.time →
      n = m ∧ opened A again other policy stress m next = opened A series binding policy stress n bar := by
  constructor
  · intro t hcaches hbinding
    have hagree := compileSeries_congr hcaches hbinding hout houts
    refine ⟨hagree, ?_⟩
    intro symbol series again hseries hagain
    exact sameUpTo A policy stress (upTo_eq_of_mem (keys_of_compileSeries houts) hagree hseries hagain)
      hbinding
  · intro symbol series again hseries hagain n m bar next hbar hnext htime hopening hcaches hbinding
    have hbefore := binding.effectiveBy_mono (show bar.time - 1 ≤ bar.time by omega) hbinding
    have hagree := compileSeries_congr hcaches hbefore hout houts
    have hsame := upTo_eq_of_mem (keys_of_compileSeries houts) hagree hseries hagain
    have hcount : countUpTo Bar.time (bar.time - 1) again.scoredBars =
        countUpTo Bar.time (bar.time - 1) series.scoredBars := by
      rw [countUpTo_eq_length, countUpTo_eq_length, scoredBars_upTo hsame]
    have hn := eq_countUpTo Bar.time scoredBars_pairwise hbar
    have hm := eq_countUpTo Bar.time scoredBars_pairwise hnext
    rw [htime, hcount, ← hn] at hm
    subst hm
    exact ⟨rfl, opened_congr A policy stress hsame hbefore hn.le hbar htime hopening
      (show bar.time - 1 ≤ bar.time by omega) le_rfl hbinding⟩

/-- Exact numbers in place of the binary ones. -/
def rationals : Floats ℚ where
  ofDecimal := Decimal.toRat
  ofInt := fun n => n
  toDecimal := fun x => Decimal.quotient 17 (Decimal.ofInt x.num 0) (Decimal.ofInt x.den 0)
  truncate := fun x => x.num.tdiv x.den
  isFinite := fun _ => true
  add := (· + ·)
  sub := (· - ·)
  mul := (· * ·)
  div := (· / ·)
  neg := fun x => -x
  sqrt := fun x => Nat.sqrt (x.num.toNat * x.den) / x.den
  square := fun x => some (x * x)
  sum := List.sum
  lt := fun a b => decide (a < b)
  le := fun a b => decide (a ≤ b)
  eq := fun a b => decide (a = b)
  one_le_truncate := by
    intro x _ heq hlt
    rw [decide_eq_true_eq] at heq
    rw [decide_eq_false_iff_not, not_lt, ← heq] at hlt
    exact_mod_cast hlt

def sampleRow (index : ℕ) (price : ℚ) : Row ℚ :=
  ⟨1583020800000 + 900000 * index, price, price, price, price, 1, 1, 1⟩

/-- Four bars, the last of which rises or falls. -/
def sampleBars (rises : Bool) : ProductionBars rationals where
  symbol := sampleSymbol
  timeframe := .m15
  rows := [sampleRow 0 10, sampleRow 1 9, sampleRow 2 12, sampleRow 3 (if rises then 20 else 8)]
  datasetId := "sample"
  evidencePartition := "DEVELOPMENT"
  valid := by cases rises <;> decide +kernel

def sampleCaches (rises : Bool) : FeatureCaches rationals where
  entries := [(sampleSymbol,
    { bars := sampleBars rises, peers := [], distinct := List.nodup_nil, valid := rfl })]
  distinct := List.nodup_singleton _

def sampleCandidate : Candidate where
  family := "TREND_CROSSOVER"
  state := "PRE_OUTCOME_REGISTERED"
  timeframe := "15m"
  parameterVector := [("fast_window", "1"), ("slow_window", "2")]

/-- The averages cross at the third bar. -/
def sampleFields (rises : Bool) : SeriesFields where
  symbol := sampleSymbol
  timeframe := .m15
  bars := [⟨1583020800000, 10, 10, false, false⟩, ⟨1583021700000, 9, 9, false, false⟩,
    ⟨1583022600000, 12, 12, true, true⟩,
    ⟨1583023500000, if rises then 20 else 8, if rises then 20 else 8, rises, true⟩]

theorem compileSeries_sampleCaches (rises : Bool) :
    compileSeries sampleCandidate 1 (sampleCaches rises) sampleBinding =
      .ok [(sampleSymbol, sampleFields rises)] := by
  cases rises <;> decide +kernel

theorem no_look_ahead_sample :
    [(sampleSymbol, (sampleFields false).upTo 1583022600000)] =
      [(sampleSymbol, (sampleFields true).upTo 1583022600000)] :=
  ((no_look_ahead rationals decimal34 defaultPolicy false (compileSeries_sampleCaches false)
    (compileSeries_sampleCaches true)).1 1583022600000 (by decide +kernel) rfl).1

end TradingLab.Production
