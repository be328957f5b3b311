import TradingLab.Analytics.Amounts
import TradingLab.Analytics.PerformanceMetrics
import TradingLab.Series.Drawdown

/-!
# What the metrics add up to

A reconstruction whose trades can be measured has a report, and the report holds the
sums of its trades. Where the amounts fit the wide context every column is added up
exactly, and the pass over the results finds the largest fall of the running result.
-/

namespace TradingLab

open Decimal List

namespace Analytics

namespace PerformanceMetrics

theorem Reads.numberOf {value : String} (h : Reads value) (fail : String → AnalyticsError)
    (label : String) : numberOf fail value label = .ok (amount value) := by
  have hne : value ≠ "" := by
    rintro rfl
    exact absurd h (by decide)
  unfold Analytics.numberOf
  rw [raiseIf_neg hne, ok_bind, h]

theorem numberOf_eq_ok {fail : String → AnalyticsError} {value label : String} {d : Decimal}
    (h : numberOf fail value label = .ok d) : Reads value ∧ amount value = d := by
  unfold numberOf at h
  obtain ⟨-, h⟩ := raiseIf_bind_eq_ok.mp h
  split at h
  · rename_i n hn
    cases h
    exact reads_of_ofString hn
  · cases h
  · cases h

namespace TradePerformanceMetric

variable (m : TradePerformanceMetric)

def realized : Decimal := amount m.realizedPnlQuote
def entryGross : Decimal := amount m.entryGrossQuote
def exitGross : Decimal := amount m.exitGrossQuote
def cashOut : Decimal := amount m.entryCashOutQuote
def fee : Decimal := amount m.totalFeeQuote
def slippage : Decimal := amount m.totalSlippageQuote

structure Sound : Prop where
  realized : Reads m.realizedPnlQuote
  entryGross : Reads m.entryGrossQuote ∧ 0 < m.entryGross.toRat
  exitGross : Reads m.exitGrossQuote ∧ 0 < m.exitGross.toRat
  cashOut : Reads m.entryCashOutQuote ∧ 0 < m.cashOut.toRat
  fee : Reads m.totalFeeQuote ∧ 0 ≤ m.fee.toRat
  slippage : Reads m.totalSlippageQuote ∧ 0 ≤ m.slippage.toRat
  digest : Sha256.isHexDigest m.tradeSha256 = true

theorem sound : m.Sound := by
  have h := m.valid
  unfold TradePerformanceMetric.Fields.postInit PerformanceMetrics._decimal at h
  simp only [bind_eq_ok] at h
  obtain ⟨_, hidentity, _, hrealized, _, hentry, _, hexit, _, hcash, _, -, _, -, _, hfee, _,
    hslippage, hbounds⟩ := h
  rw [raiseIf_eq_ok] at hidentity hbounds
  obtain ⟨readsRealized, -⟩ := numberOf_eq_ok hrealized
  obtain ⟨readsEntry, rfl⟩ := numberOf_eq_ok hentry
  obtain ⟨readsExit, rfl⟩ := numberOf_eq_ok hexit
  obtain ⟨readsCash, rfl⟩ := numberOf_eq_ok hcash
  obtain ⟨readsFee, rfl⟩ := numberOf_eq_ok hfee
  obtain ⟨readsSlippage, rfl⟩ := numberOf_eq_ok hslippage
  simp only [not_or, le_def, lt_def, not_le, not_lt, toRat_zero, not_not] at hbounds hidentity
  obtain ⟨hentry0, hexit0, hcash0, hfee0, hslippage0⟩ := hbounds
  exact ⟨readsRealized, ⟨readsEntry, hentry0⟩, ⟨readsExit, hexit0⟩, ⟨readsCash, hcash0⟩,
    ⟨readsFee, hfee0⟩, ⟨readsSlippage, hslippage0⟩, hidentity.2.1⟩

end TradePerformanceMetric

/-- The metric of a trade repeats what the trade holds. -/
structure Measures (t : CompletedPaperTrade) (m : TradePerformanceMetric) : Prop where
  index : m.tradeIndex = t.tradeIndex
  digest : m.tradeSha256 = t.tradeSha256
  realized : m.realizedPnlQuote = t.realizedPnlQuote
  entryGross : m.entryGrossQuote = t.entry.grossQuote
  exitGross : m.exitGrossQuote = t.exit.grossQuote
  cashOut : m.entryCashOutQuote = (neg decimalPrecision (amount t.entry.cashDelta)).fixed
  fee : m.totalFeeQuote = t.totalFeeQuote
  slippage : m.totalSlippageQuote = t.totalSlippageQuote

/-- Numbers of which the returns of a trade can be written out. -/
structure Measurable (t : CompletedPaperTrade) : Prop where
  gain : Moderate 1000 (sub decimalPrecision (amount t.exit.grossQuote) (amount t.entry.grossQuote))
  entryGross : Moderate 1000 (amount t.entry.grossQuote)
  realized : Moderate 1000 (amount t.realizedPnlQuote)
  cashOut : Moderate 1000 (neg decimalPrecision (amount t.entry.cashDelta))
  paid : 0 < (neg decimalPrecision (amount t.entry.cashDelta)).toRat
  fee : 0 ≤ (amount t.totalFeeQuote).toRat
  slippage : 0 ≤ (amount t.totalSlippageQuote).toRat

theorem tradeMetric_eq_ok {t : CompletedPaperTrade} (h : Measurable t) :
    ∃ m, _tradeMetric t = .ok m := by
  have hentry := t.entry.sound
  have hexit := t.exit.sound
  have hsound := t.sound
  have hprec : 0 < decimalPrecision ∧ decimalPrecision ≤ 1000 := by decide
  have hgrossReturn := reads_fixed (h.gain.quotient h.entryGross hprec.1 hprec.2) (by decide)
  have hnetReturn := reads_fixed (h.realized.quotient h.cashOut hprec.1 hprec.2) (by decide)
  have hcashOut := reads_fixed h.cashOut (by decide)
  have hdenominator : ¬ (amount t.entry.grossQuote ≤ 0 ∨
      neg decimalPrecision (amount t.entry.cashDelta) ≤ 0) := by
    simp only [not_or, le_def, not_le, toRat_zero]
    exact ⟨hentry.gross.2, h.paid⟩
  have hpaid : 0 < (amount (neg decimalPrecision (amount t.entry.cashDelta)).fixed).toRat := by
    rw [hcashOut.2]
    exact h.paid
  have hcosts : ¬ (amount t.entry.grossQuote ≤ 0 ∨ amount t.exit.grossQuote ≤ 0 ∨
      amount (neg decimalPrecision (amount t.entry.cashDelta)).fixed ≤ 0 ∨
      amount t.totalFeeQuote < 0 ∨ amount t.totalSlippageQuote < 0) := by
    simp only [not_or, le_def, lt_def, not_le, not_lt, toRat_zero]
    exact ⟨hentry.gross.2, hexit.gross.2, hpaid, h.fee, h.slippage⟩
  have hidentity : ¬ (t.tradeIndex < 0 ∨ ¬ Sha256.isHexDigest t.tradeSha256 = true ∨
      t.holdingTimeMs < 0) := by
    simp only [not_or, not_lt, not_not]
    exact ⟨hsound.index, Json.isHexDigest_sha256 _, hsound.holding⟩
  unfold _tradeMetric _decimal
  rw [Reads.numberOf hentry.gross.1.reads, ok_bind, Reads.numberOf hexit.gross.1.reads, ok_bind,
    Reads.numberOf hentry.cash.reads, ok_bind, Reads.numberOf hsound.realized.reads, ok_bind,
    raiseIf_neg hdenominator, ok_bind]
  dsimp only
  refine ⟨_, construct_of_ok ?_⟩
  unfold TradePerformanceMetric.Fields.postInit _decimal _format
  dsimp only
  rw [raiseIf_neg hidentity, ok_bind, Reads.numberOf hsound.realized.reads, ok_bind,
    Reads.numberOf hentry.gross.1.reads, ok_bind, Reads.numberOf hexit.gross.1.reads, ok_bind,
    Reads.numberOf hcashOut.1, ok_bind, Reads.numberOf hgrossReturn.1, ok_bind,
    Reads.numberOf hnetReturn.1, ok_bind, Reads.numberOf hsound.fee.reads, ok_bind,
    Reads.numberOf hsound.slippage.reads, ok_bind, raiseIf_neg hcosts]

theorem measures_of_tradeMetric {t : CompletedPaperTrade} {m : TradePerformanceMetric}
    (h : _tradeMetric t = .ok m) : Measures t m := by
  have hcash := t.entry.sound.cash.reads
  unfold _tradeMetric at h
  obtain ⟨_, -, h⟩ := bind_eq_ok.mp h
  obtain ⟨_, -, h⟩ := bind_eq_ok.mp h
  unfold _decimal at h
  rw [Reads.numberOf hcash, ok_bind] at h
  obtain ⟨_, -, h⟩ := bind_eq_ok.mp h
  obtain ⟨-, h⟩ := raiseIf_bind_eq_ok.mp h
  obtain ⟨-, rfl⟩ := construct_eq_ok.mp h
  exact ⟨rfl, rfl, rfl, rfl, rfl, rfl, rfl, rfl⟩

section Columns
variable (ms : List TradePerformanceMetric)

theorem mapM_realized : (ms.mapM fun m => _decimal m.realizedPnlQuote "Trade realized PnL") =
    .ok (ms.map fun m => m.realized) :=
  mapM_eq_map fun m _ => Reads.numberOf m.sound.realized .performanceMetrics _

theorem mapM_fee : (ms.mapM fun m => _decimal m.totalFeeQuote "Trade fee") =
    .ok (ms.map fun m => m.fee) :=
  mapM_eq_map fun m _ => Reads.numberOf m.sound.fee.1 .performanceMetrics _

theorem mapM_slippage : (ms.mapM fun m => _decimal m.totalSlippageQuote "Trade slippage") =
    .ok (ms.map fun m => m.slippage) :=
  mapM_eq_map fun m _ => Reads.numberOf m.sound.slippage.1 .performanceMetrics _

theorem mapM_entryGross : (ms.mapM fun m => _decimal m.entryGrossQuote "Trade entry gross quote") =
    .ok (ms.map fun m => m.entryGross) :=
  mapM_eq_map fun m _ => Reads.numberOf m.sound.entryGross.1 .performanceMetrics _

theorem mapM_exitGross : (ms.mapM fun m => _decimal m.exitGrossQuote "Trade exit gross quote") =
    .ok (ms.map fun m => m.exitGross) :=
  mapM_eq_map fun m _ => Reads.numberOf m.sound.exitGross.1 .performanceMetrics _

theorem mapM_cashOut : (ms.mapM fun m => _decimal m.entryCashOutQuote "Trade entry cash out") =
    .ok (ms.map fun m => m.cashOut) :=
  mapM_eq_map fun m _ => Reads.numberOf m.sound.cashOut.1 .performanceMetrics _

end Columns

/-- The values of an aggregate, as the wide context gives them. -/
structure Aggregated (ms : List TradePerformanceMetric) (v : _AggregateValues) : Prop where
  count : v.completedTradeCount = ms.length
  wins : v.winningTrades = (ms.map fun m => m.realized).countP fun d => 0 < d
  losses : v.losingTrades = (ms.map fun m => m.realized).countP fun d => d < 0
  breakeven : v.breakevenTrades =
    (ms.map fun m => m.realized).countP fun d : Decimal => decide (d ≈ 0)
  realized : v.realizedPnlQuote = (sum decimalPrecision (ms.map fun m => m.realized)).fixed
  gross : v.grossPnlQuote = (sub decimalPrecision (sum decimalPrecision (ms.map fun m => m.exitGross))
    (sum decimalPrecision (ms.map fun m => m.entryGross))).fixed
  fee : v.totalFeeQuote = (sum decimalPrecision (ms.map fun m => m.fee)).fixed
  cost : v.totalCostQuote = (add decimalPrecision (sum decimalPrecision (ms.map fun m => m.fee))
    (sum decimalPrecision (ms.map fun m => m.slippage))).fixed
  drawdown : v.maximumRealizedDrawdownQuote =
    ((ms.map fun m => m.realized).foldl DrawdownState.next .start).maximumDrawdown.fixed

/-- The denominators of the returns. -/
def Denominators (ms : List TradePerformanceMetric) : Prop :=
  0 < (sum decimalPrecision (ms.map fun m => m.entryGross)).toRat ∧
    0 < (sum decimalPrecision (ms.map fun m => m.cashOut)).toRat

theorem returns_eq_ok {ms : List TradePerformanceMetric} (realized : Decimal)
    (h : ms = [] ∨ Denominators ms) : ∃ x, _returns ms realized = .ok x := by
  unfold _returns
  split_ifs with hempty
  · exact ⟨_, rfl⟩
  · obtain ⟨hgross, hcash⟩ := h.resolve_left hempty
    have hdenominator : ¬ (sum decimalPrecision (ms.map fun m => m.entryGross) ≤ 0 ∨
        sum decimalPrecision (ms.map fun m => m.cashOut) ≤ 0) := by
      simp only [not_or, le_def, not_le, toRat_zero]
      exact ⟨hgross, hcash⟩
    rw [mapM_entryGross, ok_bind, mapM_exitGross, ok_bind, mapM_cashOut, ok_bind]
    dsimp only
    rw [raiseIf_neg hdenominator, ok_bind]
    exact ⟨_, rfl⟩

theorem grossPnl_of_returns {ms : List TradePerformanceMetric} {realized : Decimal} {x : Returns}
    (h : _returns ms realized = .ok x) :
    x.grossPnl = sub decimalPrecision (sum decimalPrecision (ms.map fun m => m.exitGross))
      (sum decimalPrecision (ms.map fun m => m.entryGross)) := by
  unfold _returns at h
  split_ifs at h with hempty
  · cases h
    rw [hempty]
    decide
  · rw [mapM_entryGross, ok_bind, mapM_exitGross, ok_bind, mapM_cashOut, ok_bind] at h
    obtain ⟨-, h⟩ := raiseIf_bind_eq_ok.mp h
    cases h
    rfl

theorem aggregate_eq_ok {ms : List TradePerformanceMetric} (hlength : ms.length ≤ maxCompletedTrades)
    (h : ms = [] ∨ Denominators ms) : ∃ v, _aggregate ms = .ok v := by
  obtain ⟨x, hx⟩ := returns_eq_ok (sum decimalPrecision (ms.map fun m => m.realized)) h
  unfold _aggregate
  rw [raiseIf_neg (not_lt.mpr hlength), ok_bind, mapM_realized, ok_bind, mapM_fee, ok_bind,
    mapM_slippage, ok_bind]
  dsimp only
  rw [hx, ok_bind]
  exact ⟨_, rfl⟩

theorem aggregated_of_aggregate {ms : List TradePerformanceMetric} {v : _AggregateValues}
    (h : _aggregate ms = .ok v) : Aggregated ms v := by
  unfold _aggregate at h
  rw [mapM_realized, ok_bind, mapM_fee, ok_bind, mapM_slippage, ok_bind] at h
  obtain ⟨-, h⟩ := raiseIf_bind_eq_ok.mp h
  obtain ⟨x, hx, h⟩ := bind_eq_ok.mp h
  cases h
  exact ⟨rfl, rfl, rfl, rfl, rfl, congrArg _format (grossPnl_of_returns hx), rfl, rfl, rfl⟩

theorem PerformanceMetricsReport.aggregated (r : PerformanceMetricsReport) :
    Aggregated r.trades r.values := by
  have h := r.valid
  unfold PerformanceMetricsReport.Fields.postInit at h
  obtain ⟨-, h⟩ := raiseIf_bind_eq_ok.mp h
  obtain ⟨-, h⟩ := raiseIf_bind_eq_ok.mp h
  obtain ⟨-, h⟩ := raiseIf_bind_eq_ok.mp h
  obtain ⟨v, hv, h⟩ := bind_eq_ok.mp h
  obtain ⟨hvalues, -⟩ := raiseIf_bind_eq_ok.mp h
  rw [not_not.mp hvalues]
  exact aggregated_of_aggregate hv

theorem PerformanceMetricsReport.distinct (r : PerformanceMetricsReport) :
    (r.trades.map fun m => m.tradeSha256).Nodup := by
  have h := r.valid
  unfold PerformanceMetricsReport.Fields.postInit at h
  obtain ⟨-, h⟩ := raiseIf_bind_eq_ok.mp h
  obtain ⟨-, h⟩ := raiseIf_bind_eq_ok.mp h
  obtain ⟨hdistinct, -⟩ := raiseIf_bind_eq_ok.mp h
  exact not_not.mp hdistinct

/-- The metrics of a reconstruction. -/
def MeasuredBy (r : PaperTradeReconstruction) (ms : List TradePerformanceMetric) : Prop :=
  List.Forall₂ Measures r.completed ms

variable {ts : List CompletedPaperTrade} {α : Type}

theorem measuredBy_of_mapM {ms : List TradePerformanceMetric}
    (h : ts.mapM _tradeMetric = .ok ms) : List.Forall₂ Measures ts ms :=
  (mapM_eq_ok.mp h).imp fun _ _ hmetric => measures_of_tradeMetric hmetric

theorem measuredBy_of_calculate {r : PaperTradeReconstruction} {report : PerformanceMetricsReport}
    (h : calculatePerformanceMetrics r = .ok report) : MeasuredBy r report.trades := by
  unfold calculatePerformanceMetrics at h
  obtain ⟨-, h⟩ := raiseIf_bind_eq_ok.mp h
  obtain ⟨ms, hms, h⟩ := bind_eq_ok.mp h
  obtain ⟨v, -, h⟩ := bind_eq_ok.mp h
  obtain ⟨-, rfl⟩ := construct_eq_ok.mp h
  exact measuredBy_of_mapM hms

theorem exists_mapM {ε β : Type} {f : α → Except ε β} {xs : List α}
    (h : ∀ x ∈ xs, ∃ y, f x = .ok y) : ∃ ys, xs.mapM f = .ok ys := by
  induction xs with
  | nil => exact ⟨[], rfl⟩
  | cons x xs ih =>
    obtain ⟨y, hy⟩ := h x mem_cons_self
    obtain ⟨ys, hys⟩ := ih fun z hz => h z (mem_cons_of_mem x hz)
    refine ⟨y :: ys, ?_⟩
    rw [mapM_cons, hy, ok_bind, hys]
    rfl

theorem map_eq_of_measures {ms : List TradePerformanceMetric} (h : List.Forall₂ Measures ts ms)
    {f : CompletedPaperTrade → α} {g : TradePerformanceMetric → α}
    (hfg : ∀ t m, Measures t m → g m = f t) : ms.map g = ts.map f := by
  induction h with
  | nil => rfl
  | cons hmeasures _ ih => rw [map_cons, map_cons, hfg _ _ hmeasures, ih]

/-- The report of a reconstruction whose trades can be measured. -/
theorem calculate_eq_ok {r : PaperTradeReconstruction} (hr : r.Sound)
    (hdistinct : (r.completed.map fun t => t.tradeSha256).Nodup)
    (hmeasurable : ∀ t ∈ r.completed, Measurable t)
    (hdenominators : ∀ ms, MeasuredBy r ms → ms = [] ∨ Denominators ms) :
    ∃ report, calculatePerformanceMetrics r = .ok report := by
  obtain ⟨ms, hms⟩ := exists_mapM fun t ht => tradeMetric_eq_ok (hmeasurable t ht)
  have hmeasures := measuredBy_of_mapM hms
  have hlength : ms.length ≤ maxCompletedTrades := by
    rw [← hmeasures.length_eq]
    exact hr.length
  obtain ⟨v, hv⟩ := aggregate_eq_ok hlength (hdenominators ms hmeasures)
  have hindexes : ms.map (·.tradeIndex) = (range ms.length).map Int.ofNat := by
    rw [map_eq_of_measures hmeasures fun t m h => h.index, hr.indexes, hmeasures.length_eq]
  have hdigests : (ms.map (·.tradeSha256)).Nodup := by
    rw [map_eq_of_measures hmeasures fun t m h => h.digest]
    exact hdistinct
  have hidentity : ¬ (¬ Sha256.isHexDigest r.reconstructionSha256 = true ∨
      ¬ Sha256.isHexDigest r.timelineSha256 = true ∨ maxCompletedTrades < ms.length) := by
    simp only [not_or, not_not, not_lt]
    exact ⟨Json.isHexDigest_sha256 _, hr.timeline, hlength⟩
  have hbound : r.completed.length ≤ maxCompletedTrades := hr.length
  unfold calculatePerformanceMetrics
  rw [raiseIf_neg (not_lt.mpr hbound), ok_bind, hms, ok_bind, hv, ok_bind]
  refine ⟨_, construct_of_ok ?_⟩
  unfold PerformanceMetricsReport.Fields.postInit
  dsimp only
  rw [raiseIf_neg hidentity, ok_bind, raiseIf_neg (not_not.mpr hindexes), ok_bind,
    raiseIf_neg (not_not.mpr hdigests), ok_bind, hv, ok_bind, raiseIf_neg (not_not.mpr rfl), ok_bind,
    raiseIf_neg (not_not.mpr rfl)]

namespace TradePerformanceMetric

/-- No column of a metric holds more than this. -/
def weight (m : TradePerformanceMetric) : ℚ :=
  max (max |m.realized.toRat| |m.cashOut.toRat|)
    (max (|m.entryGross.toRat| + |m.exitGross.toRat|) (|m.fee.toRat| + |m.slippage.toRat|))

structure Placed (f : ℕ) (m : TradePerformanceMetric) : Prop where
  realized : Places f m.realized
  entryGross : Places f m.entryGross
  exitGross : Places f m.exitGross
  cashOut : Places f m.cashOut
  fee : Places f m.fee
  slippage : Places f m.slippage

theorem abs_realized_le (m : TradePerformanceMetric) : |m.realized.toRat| ≤ m.weight :=
  (le_max_left _ _).trans (le_max_left _ _)

theorem abs_cashOut_le (m : TradePerformanceMetric) : |m.cashOut.toRat| ≤ m.weight :=
  (le_max_right _ _).trans (le_max_left _ _)

theorem abs_gross_le (m : TradePerformanceMetric) :
    |m.entryGross.toRat| + |m.exitGross.toRat| ≤ m.weight :=
  (le_max_left _ _).trans (le_max_right _ _)

theorem abs_cost_le (m : TradePerformanceMetric) :
    |m.fee.toRat| + |m.slippage.toRat| ≤ m.weight :=
  (le_max_right _ _).trans (le_max_right _ _)

theorem weight_nonneg (m : TradePerformanceMetric) : 0 ≤ m.weight :=
  (abs_nonneg _).trans m.abs_realized_le

end TradePerformanceMetric

open TradePerformanceMetric

/-- Metrics with at most `f` digits after the point, and below `10^b` together. -/
structure MetricsFit (f b : ℕ) (ms : List TradePerformanceMetric) : Prop where
  room : f + b ≤ decimalPrecision
  placed : ∀ m ∈ ms, m.Placed f
  total : (ms.map weight).sum < 10 ^ b

section Columns
variable {f b : ℕ} {ms ms' : List TradePerformanceMetric}

theorem MetricsFit.perm (h : MetricsFit f b ms) (hperm : ms'.Perm ms) : MetricsFit f b ms' := by
  refine ⟨h.room, fun m hm => h.placed m (hperm.subset hm), ?_⟩
  rw [(hperm.map weight).sum_eq]
  exact h.total

theorem MetricsFit.sublist (h : MetricsFit f b ms) (hsub : ms'.Sublist ms) :
    MetricsFit f b ms' := by
  refine ⟨h.room, fun m hm => h.placed m (hsub.subset hm), lt_of_le_of_lt ?_ h.total⟩
  refine (hsub.map weight).sum_le_sum ?_
  intro x hx
  obtain ⟨m, -, rfl⟩ := mem_map.mp hx
  exact m.weight_nonneg

theorem MetricsFit.abs_sum_lt (h : MetricsFit f b ms) {g : TradePerformanceMetric → ℚ}
    (hle : ∀ m ∈ ms, |g m| ≤ m.weight) : |(ms.map g).sum| < 10 ^ b := by
  refine (Series.abs_sum_le _).trans_lt (lt_of_le_of_lt ?_ h.total)
  rw [map_map]
  exact sum_le_sum hle

/-- The sum of a column, in the wide context. -/
structure Column (f b : ℕ) (ms : List TradePerformanceMetric)
    (c : TradePerformanceMetric → Decimal) : Prop where
  value : (sum decimalPrecision (ms.map c)).toRat = (ms.map fun m => (c m).toRat).sum
  places : Places f (sum decimalPrecision (ms.map c))

theorem MetricsFit.column (h : MetricsFit f b ms) {c : TradePerformanceMetric → Decimal}
    (hplaces : ∀ m ∈ ms, Places f (c m)) (hle : ∀ m ∈ ms, |(c m).toRat| ≤ m.weight) :
    Column f b ms c := by
  have hmagnitude : magnitude (ms.map c) < 10 ^ b := by
    refine lt_of_le_of_lt ?_ h.total
    unfold magnitude
    rw [map_map]
    exact sum_le_sum hle
  have hcolumn : ∀ d ∈ ms.map c, Places f d := by
    intro d hd
    obtain ⟨m, hm, rfl⟩ := mem_map.mp hd
    exact hplaces m hm
  obtain ⟨hvalue, hsum⟩ := sum_of_places hcolumn (by decide) h.room hmagnitude
  rw [map_map] at hvalue
  exact ⟨hvalue, hsum⟩

end Columns

section Measured
variable {f b : ℕ} {t : CompletedPaperTrade} {m : TradePerformanceMetric}

theorem Measures.cashOut_eq (h : Measures t m) (hexact : t.Exact f)
    (hroom : f + b ≤ decimalPrecision) (hlt : magnitude t.amounts < 10 ^ b) :
    m.cashOut = neg decimalPrecision (amount t.entry.cashDelta) := by
  have hcash : |(amount t.entry.cashDelta).toRat| ≤ magnitude t.amounts := by
    unfold magnitude
    refine single_le_sum ?_ _ (mem_map_of_mem ?_)
    · intro x hx
      obtain ⟨d, -, rfl⟩ := mem_map.mp hx
      exact abs_nonneg _
    · simp [CompletedPaperTrade.amounts]
  have hread := amount_fixed hexact.places.2.2.2.2.2
    (by rw [hexact.cashOut, abs_neg]; exact hcash.trans_lt hlt) hroom
  rw [TradePerformanceMetric.cashOut, h.cashOut, hread.2]

theorem Measures.placed (h : Measures t m) (hexact : t.Exact f)
    (hcash : m.cashOut = neg decimalPrecision (amount t.entry.cashDelta)) : m.Placed f := by
  obtain ⟨hrealized, hfee, hslippage, hentry, hexit, hcashOut⟩ := hexact.places
  constructor
  · rw [TradePerformanceMetric.realized, h.realized]
    exact hrealized
  · rw [TradePerformanceMetric.entryGross, h.entryGross]
    exact hentry
  · rw [TradePerformanceMetric.exitGross, h.exitGross]
    exact hexit
  · rw [hcash]
    exact hcashOut
  · rw [TradePerformanceMetric.fee, h.fee]
    exact hfee
  · rw [TradePerformanceMetric.slippage, h.slippage]
    exact hslippage

theorem Measures.weight_le (h : Measures t m) (hexact : t.Exact f)
    (hcash : m.cashOut = neg decimalPrecision (amount t.entry.cashDelta)) :
    m.weight ≤ magnitude t.amounts := by
  have hnonneg := fun value : String => abs_nonneg (amount value).toRat
  have h1 := hnonneg t.entry.grossQuote
  have h2 := hnonneg t.exit.grossQuote
  have h3 := hnonneg t.entry.cashDelta
  have h4 := hnonneg t.exit.cashDelta
  have h5 := hnonneg t.entry.feeQuote
  have h6 := hnonneg t.exit.feeQuote
  have h7 := hnonneg t.entry.slippageQuote
  have h8 := hnonneg t.exit.slippageQuote
  have hrealized := abs_add_le (amount t.entry.cashDelta).toRat (amount t.exit.cashDelta).toRat
  have hfee := abs_add_le (amount t.entry.feeQuote).toRat (amount t.exit.feeQuote).toRat
  have hslippage :=
    abs_add_le (amount t.entry.slippageQuote).toRat (amount t.exit.slippageQuote).toRat
  unfold weight
  rw [hcash, TradePerformanceMetric.realized, h.realized, TradePerformanceMetric.entryGross,
    h.entryGross, TradePerformanceMetric.exitGross, h.exitGross, TradePerformanceMetric.fee, h.fee,
    TradePerformanceMetric.slippage, h.slippage, hexact.realized, hexact.cashOut, hexact.fee,
    hexact.slippage, abs_neg, t.magnitude_amounts]
  refine max_le (max_le ?_ ?_) (max_le ?_ ?_)
  · linarith
  · linarith
  · linarith
  · linarith

variable {ts : List CompletedPaperTrade}

theorem sum_le_of_measures {ms : List TradePerformanceMetric}
    {u : TradePerformanceMetric → ℚ} {v : CompletedPaperTrade → ℚ} (h : List.Forall₂ Measures ts ms)
    (hle : ∀ t ∈ ts, ∀ m, Measures t m → u m ≤ v t) : (ms.map u).sum ≤ (ts.map v).sum := by
  induction h with
  | nil => exact le_rfl
  | cons hmeasures _ ih =>
    simp only [map_cons, sum_cons]
    exact add_le_add (hle _ mem_cons_self _ hmeasures)
      (ih fun t ht => hle t (mem_cons_of_mem _ ht))

theorem exists_measures {ms : List TradePerformanceMetric}
    (h : List.Forall₂ Measures ts ms) (hm : m ∈ ms) : ∃ t ∈ ts, Measures t m := by
  induction h with
  | nil => exact absurd hm not_mem_nil
  | cons hmeasures _ ih =>
    rcases mem_cons.mp hm with rfl | hm
    · exact ⟨_, mem_cons_self, hmeasures⟩
    · obtain ⟨t, ht, hmeasures⟩ := ih hm
      exact ⟨t, mem_cons_of_mem _ ht, hmeasures⟩

variable {r : PaperTradeReconstruction} {ms : List TradePerformanceMetric}

theorem metricsFit_of_measuredBy (hr : r.Sound) (hfit : AmountsFit f b r.completed)
    (h : MeasuredBy r ms) : MetricsFit f b ms := by
  have hcash : ∀ t ∈ r.completed, ∀ m, Measures t m →
      t.Exact f ∧ m.cashOut = neg decimalPrecision (amount t.entry.cashDelta) := by
    intro t ht m hmeasures
    have hexact := hfit.exact ht (hr.sums t ht)
    exact ⟨hexact, hmeasures.cashOut_eq hexact hfit.room (hfit.lt ht)⟩
  refine ⟨hfit.room, ?_, ?_⟩
  · intro m hm
    obtain ⟨t, ht, hmeasures⟩ := exists_measures h hm
    obtain ⟨hexact, hout⟩ := hcash t ht m hmeasures
    exact hmeasures.placed hexact hout
  · refine lt_of_le_of_lt (sum_le_of_measures h ?_) (magnitude_flatMap _ _ ▸ hfit.total)
    intro t ht m hmeasures
    obtain ⟨hexact, hout⟩ := hcash t ht m hmeasures
    exact hmeasures.weight_le hexact hout

theorem AmountsFit.measurable (hr : r.Sound) (hfit : AmountsFit f b r.completed)
    (ht : t ∈ r.completed) : Measurable t := by
  have hexact := hfit.exact ht (hr.sums t ht)
  have hlt := hfit.lt ht
  have hroom := hfit.room
  rw [t.magnitude_amounts] at hlt
  have hentry := t.entry.sound
  have hexit := t.exit.sound
  have hnonneg := fun value : String => abs_nonneg (amount value).toRat
  have h1 := hnonneg t.entry.grossQuote
  have h2 := hnonneg t.exit.grossQuote
  have h3 := hnonneg t.entry.cashDelta
  have h4 := hnonneg t.exit.cashDelta
  have h5 := hnonneg t.entry.feeQuote
  have h6 := hnonneg t.exit.feeQuote
  have h7 := hnonneg t.entry.slippageQuote
  have h8 := hnonneg t.exit.slippageQuote
  have hrealized := abs_add_le (amount t.entry.cashDelta).toRat (amount t.exit.cashDelta).toRat
  obtain ⟨hrealizedPlaces, -, -, hentryPlaces, hexitPlaces, houtPlaces⟩ := hexact.places
  have hmoderate : ∀ {d : Decimal}, Places f d → |d.toRat| < 10 ^ b → Moderate 1000 d :=
    fun hplaces hbound => (moderate_of_places hplaces hbound hroom).mono (by decide)
  obtain ⟨hgain, hgainPlaces⟩ := hexitPlaces.sub hentryPlaces (by decide : 0 < decimalPrecision)
    hroom ((abs_sub _ _).trans_lt (by linarith))
  constructor
  · refine hmoderate hgainPlaces ?_
    rw [hgain]
    exact (abs_sub _ _).trans_lt (by linarith)
  · exact hmoderate hentryPlaces (by linarith)
  · refine hmoderate hrealizedPlaces ?_
    rw [hexact.realized]
    linarith
  · refine hmoderate houtPlaces ?_
    rw [hexact.cashOut, abs_neg]
    linarith
  · rw [hexact.cashOut]
    exact neg_pos.mpr (hentry.entry t.sound.entry)
  · rw [hexact.fee]
    exact add_nonneg hentry.fee.2 hexit.fee.2
  · rw [hexact.slippage]
    exact add_nonneg hentry.slippage.2 hexit.slippage.2

end Measured

section Sums
variable {f b : ℕ} {ms : List TradePerformanceMetric} {v : _AggregateValues}

theorem MetricsFit.realized (h : MetricsFit f b ms) : Column f b ms fun m => m.realized :=
  h.column (fun m hm => (h.placed m hm).realized) fun m _ => m.abs_realized_le

theorem MetricsFit.cashOut (h : MetricsFit f b ms) : Column f b ms fun m => m.cashOut :=
  h.column (fun m hm => (h.placed m hm).cashOut) fun m _ => m.abs_cashOut_le

theorem MetricsFit.entryGross (h : MetricsFit f b ms) : Column f b ms fun m => m.entryGross :=
  h.column (fun m hm => (h.placed m hm).entryGross) fun m _ =>
    (le_add_of_nonneg_right (abs_nonneg _)).trans m.abs_gross_le

theorem MetricsFit.exitGross (h : MetricsFit f b ms) : Column f b ms fun m => m.exitGross :=
  h.column (fun m hm => (h.placed m hm).exitGross) fun m _ =>
    (le_add_of_nonneg_left (abs_nonneg _)).trans m.abs_gross_le

theorem MetricsFit.fee (h : MetricsFit f b ms) : Column f b ms fun m => m.fee :=
  h.column (fun m hm => (h.placed m hm).fee) fun m _ =>
    (le_add_of_nonneg_right (abs_nonneg _)).trans m.abs_cost_le

theorem MetricsFit.slippage (h : MetricsFit f b ms) : Column f b ms fun m => m.slippage :=
  h.column (fun m hm => (h.placed m hm).slippage) fun m _ =>
    (le_add_of_nonneg_left (abs_nonneg _)).trans m.abs_cost_le

theorem MetricsFit.denominators (h : MetricsFit f b ms) : ms = [] ∨ Denominators ms := by
  rcases eq_or_ne ms [] with hempty | hne
  · exact .inl hempty
  · have hpos : ∀ g : TradePerformanceMetric → ℚ, (∀ m, 0 < g m) → 0 < (ms.map g).sum := by
      intro g hg
      refine sum_pos _ ?_ (by simpa using hne)
      intro x hx
      obtain ⟨m, -, rfl⟩ := mem_map.mp hx
      exact hg m
    refine .inr ⟨?_, ?_⟩
    · rw [h.entryGross.value]
      exact hpos _ fun m => m.sound.entryGross.2
    · rw [h.cashOut.value]
      exact hpos _ fun m => m.sound.cashOut.2

/-- The texts of an aggregate, read as numbers. -/
structure ExactSums (ms : List TradePerformanceMetric) (v : _AggregateValues) : Prop where
  realized : (amount v.realizedPnlQuote).toRat = (ms.map fun m => m.realized.toRat).sum
  gross : (amount v.grossPnlQuote).toRat =
    (ms.map fun m => m.exitGross.toRat).sum - (ms.map fun m => m.entryGross.toRat).sum
  fee : (amount v.totalFeeQuote).toRat = (ms.map fun m => m.fee.toRat).sum
  cost : (amount v.totalCostQuote).toRat = (ms.map fun m => m.fee.toRat + m.slippage.toRat).sum

theorem sum_map_sub (ms : List TradePerformanceMetric) (u w : TradePerformanceMetric → ℚ) :
    (ms.map fun m => u m - w m).sum = (ms.map u).sum - (ms.map w).sum := by
  simpa using Multiset.sum_map_sub (m := (ms : Multiset TradePerformanceMetric)) (f := u) (g := w)

theorem Column.amount_eq {c : TradePerformanceMetric → Decimal} (h : Column f b ms c)
    (hfit : MetricsFit f b ms) (hle : ∀ m ∈ ms, |(c m).toRat| ≤ m.weight) :
    (amount (sum decimalPrecision (ms.map c)).fixed).toRat = (ms.map fun m => (c m).toRat).sum := by
  have hlt := hfit.abs_sum_lt hle
  rw [← h.value] at hlt ⊢
  rw [(amount_fixed h.places hlt hfit.room).2]

theorem Aggregated.exact (h : Aggregated ms v) (hfit : MetricsFit f b ms) : ExactSums ms v := by
  have hgross : (amount v.grossPnlQuote).toRat =
      (ms.map fun m => m.exitGross.toRat).sum - (ms.map fun m => m.entryGross.toRat).sum := by
    have hlt : |(ms.map fun m => m.exitGross.toRat).sum -
        (ms.map fun m => m.entryGross.toRat).sum| < 10 ^ b := by
      rw [← sum_map_sub]
      exact hfit.abs_sum_lt fun m _ => (abs_sub _ _).trans (by linarith [m.abs_gross_le])
    rw [← hfit.exitGross.value, ← hfit.entryGross.value] at hlt ⊢
    obtain ⟨hvalue, hplaces⟩ :=
      hfit.exitGross.places.sub hfit.entryGross.places (by decide) hfit.room hlt
    rw [h.gross, (amount_fixed hplaces (by rwa [hvalue]) hfit.room).2, hvalue]
  have hcost : (amount v.totalCostQuote).toRat =
      (ms.map fun m => m.fee.toRat + m.slippage.toRat).sum := by
    have hlt := hfit.abs_sum_lt fun m _ =>
      (abs_add_le m.fee.toRat m.slippage.toRat).trans m.abs_cost_le
    rw [sum_map_add, ← hfit.fee.value, ← hfit.slippage.value] at hlt ⊢
    obtain ⟨hvalue, hplaces⟩ := hfit.fee.places.add hfit.slippage.places (by decide) hfit.room hlt
    rw [h.cost, (amount_fixed hplaces (by rwa [hvalue]) hfit.room).2, hvalue]
  refine ⟨?_, hgross, ?_, hcost⟩
  · rw [h.realized]
    exact hfit.realized.amount_eq hfit fun m _ => m.abs_realized_le
  · rw [h.fee]
    exact hfit.fee.amount_eq hfit fun m _ =>
      (le_add_of_nonneg_right (abs_nonneg _)).trans m.abs_cost_le

end Sums

section Drawdown
variable {f b : ℕ}

/-- The numbers of a state, against those of the pass over the values. -/
structure DrawdownState.Tracks (f : ℕ) (s : DrawdownState) (p : Series.Pass ℚ) : Prop where
  total : s.cumulative.toRat = p.total
  peak : s.peak.toRat = p.peak
  drawdown : s.maximumDrawdown.toRat = p.drawdown
  places : Places f s.cumulative ∧ Places f s.peak ∧ Places f s.maximumDrawdown

theorem toRat_greater (d e : Decimal) : (if d < e then e else d).toRat = max d.toRat e.toRat := by
  split_ifs with h
  · exact (max_eq_right (lt_def.mp h).le).symm
  · exact (max_eq_left (not_lt.mp fun hlt => h (lt_def.mpr hlt))).symm

theorem places_greater {d e : Decimal} (hd : Places f d) (he : Places f e) :
    Places f (if d < e then e else d) := by
  split_ifs
  · exact he
  · exact hd

theorem DrawdownState.Tracks.next {s : DrawdownState} {p : Series.Pass ℚ} {d : Decimal}
    (h : s.Tracks f p) (hd : Places f d) (hroom : f + b ≤ decimalPrecision)
    (htotal : |p.total + d.toRat| < 10 ^ b)
    (hgap : |max p.peak (p.total + d.toRat) - (p.total + d.toRat)| < 10 ^ b) :
    (s.next d).Tracks f (p.next d.toRat) := by
  obtain ⟨hcumulative, hpeak, hdrawdown⟩ := h.places
  rw [← h.total] at htotal hgap
  obtain ⟨hvalue, hplaces⟩ := hcumulative.add hd (by decide : 0 < decimalPrecision) hroom htotal
  have hhigh := toRat_greater s.peak (add decimalPrecision s.cumulative d)
  have hhighPlaces := places_greater hpeak hplaces
  rw [hvalue, h.peak] at hhigh
  rw [← hhigh, ← hvalue] at hgap
  obtain ⟨hfall, hfallPlaces⟩ := hhighPlaces.sub hplaces (by decide : 0 < decimalPrecision) hroom hgap
  rw [hhigh, hvalue, h.total] at hfall
  rw [h.total] at hvalue hhigh
  refine ⟨hvalue, hhigh, ?_, hplaces, hhighPlaces, places_greater hdrawdown hfallPlaces⟩
  unfold DrawdownState.next Series.Pass.next
  dsimp only
  rw [toRat_greater, hfall, h.drawdown]

/-- The state follows the pass, as long as the values stay small together. -/
theorem tracks_foldl {ds : List Decimal} (hds : ∀ d ∈ ds, Places f d)
    (hroom : f + b ≤ decimalPrecision) (hlt : magnitude ds < 10 ^ b) :
    (ds.foldl DrawdownState.next .start).Tracks f
      ((ds.map toRat).foldl Series.Pass.next Series.Pass.start) := by
  induction ds using reverseRecOn with
  | nil => exact ⟨toRat_zero, toRat_zero, toRat_zero, places_zero f, places_zero f, places_zero f⟩
  | append_singleton ds d ih =>
    have hle : magnitude ds ≤ magnitude (ds ++ [d]) := by
      rw [magnitude_concat]
      exact le_add_of_nonneg_right (abs_nonneg _)
    have htracks := ih (fun e he => hds e (mem_append_left _ he)) (hle.trans_lt hlt)
    have hreads := (Series.Pass.reads_foldl (ds.map toRat)).next d.toRat
    have hmagnitude := sum_abs_toRat (ds ++ [d])
    rw [map_append, map_singleton] at hmagnitude
    have htotal := Series.abs_sum_le ((ds.map toRat) ++ [d.toRat])
    rw [← hreads.total, hmagnitude] at htotal
    have hgap := Series.abs_le_of_mem_declines hreads.gap_mem
    rw [hmagnitude] at hgap
    rw [map_append, map_singleton, foldl_append, foldl_append]
    exact htracks.next (hds d (mem_append_right _ mem_cons_self)) hroom
      (htotal.trans_lt hlt) (hgap.trans_lt hlt)

variable {ms : List TradePerformanceMetric} {v : _AggregateValues}

theorem Aggregated.drawdown_isGreatest (h : Aggregated ms v) (hfit : MetricsFit f b ms) :
    IsGreatest (Series.declines (ms.map fun m => m.realized.toRat))
      (amount v.maximumRealizedDrawdownQuote).toRat := by
  have hplaces : ∀ d ∈ ms.map fun m => m.realized, Places f d := by
    intro d hd
    obtain ⟨m, hm, rfl⟩ := mem_map.mp hd
    exact (hfit.placed m hm).realized
  have hlt : magnitude (ms.map fun m => m.realized) < 10 ^ b := by
    refine lt_of_le_of_lt ?_ hfit.total
    unfold magnitude
    rw [map_map]
    exact sum_le_sum fun m _ => m.abs_realized_le
  have htracks := tracks_foldl hplaces hfit.room hlt
  have hreads := Series.Pass.reads_foldl ((ms.map fun m => m.realized).map toRat)
  have hbound := Series.abs_le_of_mem_declines hreads.drawdown.1
  rw [sum_abs_toRat] at hbound
  have hread := amount_fixed htracks.places.2.2
    (by rw [htracks.drawdown]; exact hbound.trans_lt hlt) hfit.room
  rw [h.drawdown, hread.2, htracks.drawdown]
  simpa [Function.comp_def] using hreads.drawdown

end Drawdown

theorem countP_signs (ds : List Decimal) :
    (ds.countP fun d => 0 < d) + (ds.countP fun d => d < 0) +
      (ds.countP fun d : Decimal => decide (d ≈ 0)) = ds.length := by
  induction ds with
  | nil => rfl
  | cons d ds ih =>
    simp only [countP_cons, length_cons, decide_eq_true_eq, lt_def, equiv_def, toRat_zero]
      at ih ⊢
    rcases lt_trichotomy d.toRat 0 with h | h | h
    · simp only [h, h.not_gt, h.ne, if_true, if_false]
      omega
    · simp only [h, lt_irrefl, if_true, if_false]
      omega
    · simp only [h, h.not_gt, h.ne', if_true, if_false]
      omega

theorem Aggregated.counts {ms : List TradePerformanceMetric} {v : _AggregateValues}
    (h : Aggregated ms v) :
    v.winningTrades + v.losingTrades + v.breakevenTrades = v.completedTradeCount := by
  rw [h.wins, h.losses, h.breakeven, h.count, countP_signs, length_map]

end PerformanceMetrics

end Analytics

end TradingLab
