import TradingLab.Accounting.Book
import TradingLab.Analytics.MetricsLaw

/-!
# What the segments add up to

The segments of a dimension divide the trades of a report among them, so that counts,
results and costs add up to those of the report. A trade of one unit shows where the
result of a report is not what was traded less the fees.
-/

namespace TradingLab

open Decimal List

namespace Analytics

namespace Segmentation

open PerformanceMetrics TradePerformanceMetric

def costOf (m : TradePerformanceMetric) : Decimal := add decimalPrecision m.fee m.slippage

section Members
variable (ms : List TradePerformanceMetric)

theorem mapM_realized : (ms.mapM fun m => _decimal m.realizedPnlQuote "Trade realized PnL") =
    .ok (ms.map fun m => m.realized) :=
  mapM_eq_map fun m _ => Reads.numberOf m.sound.realized .segmentation _

theorem mapM_cost : (ms.mapM fun m => do
    let fee ← _decimal m.totalFeeQuote "Trade fee"
    let slippage ← _decimal m.totalSlippageQuote "Trade slippage"
    return add decimalPrecision fee slippage) = .ok (ms.map costOf) := by
  refine mapM_eq_map fun m _ => ?_
  unfold _decimal
  rw [Reads.numberOf m.sound.fee.1, ok_bind, Reads.numberOf m.sound.slippage.1]
  rfl

def orderedMembers : List TradePerformanceMetric :=
  ms.insertionSort fun a b => a.tradeSha256 ≤ b.tradeSha256

theorem orderedMembers_perm : (orderedMembers ms).Perm ms := List.perm_insertionSort _ _

theorem digests_orderedMembers : (orderedMembers ms).map (fun m => m.tradeSha256) =
    (ms.map fun m => m.tradeSha256).insertionSort (· ≤ ·) :=
  List.map_insertionSort _ _ _ _ fun _ _ _ _ => Iff.rfl

end Members

section Segment
variable {f b : ℕ} {ms : List TradePerformanceMetric} {dimension : SegmentDimension} {value : String}
  {s : TradeSegment}

structure SegmentOf (ms : List TradePerformanceMetric) (s : TradeSegment) : Prop where
  members : s.memberTradeSha256.Perm (ms.map fun m => m.tradeSha256)
  realized : s.realizedPnlQuote =
    (sum decimalPrecision ((orderedMembers ms).map fun m => m.realized)).fixed
  cost : s.totalCostQuote = (sum decimalPrecision ((orderedMembers ms).map costOf)).fixed
  wins : s.winningTrades = (ms.map fun m => m.realized).countP fun d => 0 < d
  losses : s.losingTrades = (ms.map fun m => m.realized).countP fun d => d < 0
  breakeven : s.breakevenTrades =
    (ms.map fun m => m.realized).countP fun d : Decimal => decide (d ≈ 0)

/-- The segment that the members make up, before it is checked. -/
def segmentFields (dimension : SegmentDimension) (value : String)
    (ms : List TradePerformanceMetric) : TradeSegment.Fields where
  dimension := dimension
  value := value
  memberTradeSha256 := (orderedMembers ms).map fun m => m.tradeSha256
  memberCount := (orderedMembers ms).length
  realizedPnlQuote := (sum decimalPrecision ((orderedMembers ms).map fun m => m.realized)).fixed
  totalCostQuote := (sum decimalPrecision ((orderedMembers ms).map costOf)).fixed
  winningTrades := ((orderedMembers ms).map fun m => m.realized).countP fun d => 0 < d
  losingTrades := ((orderedMembers ms).map fun m => m.realized).countP fun d => d < 0
  breakevenTrades :=
    ((orderedMembers ms).map fun m => m.realized).countP fun d : Decimal => decide (d ≈ 0)

theorem tradeSegment_eq_build : _tradeSegment dimension value ms =
    TradeSegment.build (segmentFields dimension value ms) := by
  unfold _tradeSegment
  rw [← orderedMembers]
  dsimp only
  rw [mapM_realized, ok_bind, mapM_cost, ok_bind]
  rfl

theorem segmentOf_of_tradeSegment (h : _tradeSegment dimension value ms = .ok s) :
    SegmentOf ms s := by
  have hperm := orderedMembers_perm ms
  have hrealized := hperm.map fun m => m.realized
  rw [tradeSegment_eq_build] at h
  obtain ⟨-, rfl⟩ := construct_eq_ok.mp h
  exact ⟨hperm.map _, rfl, rfl, hrealized.countP_eq _, hrealized.countP_eq _, hrealized.countP_eq _⟩

variable {m : TradePerformanceMetric}

theorem costOf_exact (h : MetricsFit f b ms) (hm : m ∈ ms) :
    (costOf m).toRat = m.fee.toRat + m.slippage.toRat ∧ Places f (costOf m) := by
  have hplaced := h.placed m hm
  have hlt : m.weight < 10 ^ b := by
    refine lt_of_le_of_lt (single_le_sum ?_ _ (mem_map_of_mem hm)) h.total
    intro x hx
    obtain ⟨m', -, rfl⟩ := mem_map.mp hx
    exact m'.weight_nonneg
  exact hplaced.fee.add hplaced.slippage (by decide : 0 < decimalPrecision) h.room
    (((abs_add_le _ _).trans m.abs_cost_le).trans_lt hlt)

theorem abs_costOf_le (h : MetricsFit f b ms) (hm : m ∈ ms) :
    |(costOf m).toRat| ≤ m.weight := by
  rw [(costOf_exact h hm).1]
  exact (abs_add_le _ _).trans m.abs_cost_le

theorem cost_column (h : MetricsFit f b ms) : Column f b ms costOf :=
  h.column (fun _ hm => (costOf_exact h hm).2) fun _ hm => abs_costOf_le h hm

theorem amount_cost (h : MetricsFit f b ms) :
    (amount (sum decimalPrecision ((orderedMembers ms).map costOf)).fixed).toRat =
      (ms.map fun m => m.fee.toRat + m.slippage.toRat).sum := by
  have hperm := orderedMembers_perm ms
  have hfit := h.perm hperm
  calc (amount (sum decimalPrecision ((orderedMembers ms).map costOf)).fixed).toRat
      = ((orderedMembers ms).map fun m => (costOf m).toRat).sum :=
        (cost_column hfit).amount_eq hfit fun _ hm => abs_costOf_le hfit hm
    _ = ((orderedMembers ms).map fun m => m.fee.toRat + m.slippage.toRat).sum :=
        congrArg List.sum (map_congr_left fun _ hm => (costOf_exact hfit hm).1)
    _ = (ms.map fun m => m.fee.toRat + m.slippage.toRat).sum := (hperm.map _).sum_eq

theorem SegmentOf.exact (h : SegmentOf ms s) (hfit : MetricsFit f b ms) :
    (amount s.realizedPnlQuote).toRat = (ms.map fun m => m.realized.toRat).sum ∧
      (amount s.totalCostQuote).toRat = (ms.map fun m => m.fee.toRat + m.slippage.toRat).sum := by
  have hperm := orderedMembers_perm ms
  have hordered := hfit.perm hperm
  constructor
  · rw [h.realized, hordered.realized.amount_eq hordered fun m _ => m.abs_realized_le]
    exact (hperm.map _).sum_eq
  · rw [h.cost]
    exact amount_cost hfit

/-- A segment of metrics that fit passes its checks. -/
theorem tradeSegment_eq_ok (h : MetricsFit f b ms) (hdimension : dimension ∈ tradeDimensions)
    (hvalue : value ≠ "") (hdistinct : (ms.map fun m => m.tradeSha256).Nodup)
    (hlength : ms.length ≤ maxSegmentMembers) :
    ∃ s, _tradeSegment dimension value ms = .ok s := by
  have hperm := orderedMembers_perm ms
  have hfit := h.perm hperm
  have hidentity : ¬ (dimension ∉ tradeDimensions ∨ value = "" ∨
      maxSegmentMembers < ((orderedMembers ms).map fun m => m.tradeSha256).length ∨
      ((orderedMembers ms).map fun m => m.tradeSha256).insertionSort (· ≤ ·) ≠
        (orderedMembers ms).map (fun m => m.tradeSha256) ∨
      ¬ ((orderedMembers ms).map fun m => m.tradeSha256).Nodup ∨
      (orderedMembers ms).length ≠ ((orderedMembers ms).map fun m => m.tradeSha256).length) := by
    simp only [not_or, not_not, not_lt, length_map, hperm.length_eq, and_true]
    refine ⟨hdimension, hvalue, hlength, ?_, (hperm.map _).nodup_iff.mpr hdistinct⟩
    rw [digests_orderedMembers]
    exact (pairwise_insertionSort _ _).insertionSort_eq
  have hdigests : ¬ ∃ sha ∈ (orderedMembers ms).map fun m => m.tradeSha256,
      ¬ Sha256.isHexDigest sha = true := by
    rintro ⟨sha, hsha, hne⟩
    obtain ⟨m, -, rfl⟩ := mem_map.mp hsha
    exact hne m.sound.digest
  have hrealized : Reads (sum decimalPrecision ((orderedMembers ms).map fun m => m.realized)).fixed := by
    have hlt := hfit.abs_sum_lt fun m _ => m.abs_realized_le
    rw [← hfit.realized.value] at hlt
    exact (amount_fixed hfit.realized.places hlt hfit.room).1
  have hcost : Reads (sum decimalPrecision ((orderedMembers ms).map costOf)).fixed := by
    have hlt := hfit.abs_sum_lt fun m hm => abs_costOf_le hfit hm
    rw [← (cost_column hfit).value] at hlt
    exact (amount_fixed (cost_column hfit).places hlt hfit.room).1
  have hnonneg : ¬ amount (sum decimalPrecision ((orderedMembers ms).map costOf)).fixed < 0 := by
    rw [lt_def, not_lt, toRat_zero, amount_cost h]
    refine sum_nonneg fun x hx => ?_
    obtain ⟨m, -, rfl⟩ := mem_map.mp hx
    exact add_nonneg m.sound.fee.2 m.sound.slippage.2
  have hcounts : ((orderedMembers ms).map fun m => m.realized).countP (fun d => 0 < d) +
      ((orderedMembers ms).map fun m => m.realized).countP (fun d => d < 0) +
        ((orderedMembers ms).map fun m => m.realized).countP (fun d : Decimal => decide (d ≈ 0)) =
          (orderedMembers ms).length := by
    rw [countP_signs, length_map]
  rw [tradeSegment_eq_build]
  refine ⟨_, construct_of_ok ?_⟩
  unfold TradeSegment.Fields.postInit segmentFields _decimal
  dsimp only
  rw [raiseIf_neg hidentity, ok_bind, raiseIf_neg hdigests, ok_bind, Reads.numberOf hrealized, ok_bind,
    Reads.numberOf hcost, ok_bind, raiseIf_neg hnonneg, ok_bind, raiseIf_neg (not_not.mpr hcounts)]

end Segment

section Parts
variable {ρ σ M : Type} {records : List ρ} {dimension : SegmentDimension} {valueFn : ρ → String}
  {segmentBuilder : SegmentDimension → String → List ρ → Except AnalyticsError σ} {segments : List σ}

/-- The parts of the records, each after its value. -/
def parts (records : List ρ) (dimension : SegmentDimension) (valueFn : ρ → String) :
    List (String × List ρ) :=
  if records = [] then [(_emptyValue dimension, [])]
  else (bucketValues records valueFn).map fun value =>
    (value, records.filter fun item => valueFn item = value)

theorem groupRecords_eq_ok :
    _groupRecords records dimension valueFn segmentBuilder = .ok segments ↔
      (∀ item ∈ records, valueFn item ≠ "") ∧ List.Forall₂
        (fun p s => segmentBuilder dimension p.1 p.2 = .ok s) (parts records dimension valueFn)
        segments := by
  unfold _groupRecords parts
  rw [raiseIf_bind_eq_ok]
  refine and_congr (by simp) ?_
  split_ifs with hempty
  · rw [bind_eq_ok, forall₂_cons_left_iff]
    simp only [forall₂_nil_left_iff]
    constructor
    · rintro ⟨segment, hsegment, hreturn⟩
      cases hreturn
      exact ⟨segment, [], hsegment, rfl, rfl⟩
    · rintro ⟨segment, rest, hsegment, rfl, rfl⟩
      exact ⟨segment, hsegment, rfl⟩
  · rw [mapM_eq_ok, forall₂_map_left_iff]

theorem nodup_bucketValues : (bucketValues records valueFn).Nodup :=
  (List.perm_insertionSort _ _).nodup_iff.mpr (List.nodup_dedup _)

theorem mem_bucketValues {value : String} :
    value ∈ bucketValues records valueFn ↔ ∃ item ∈ records, valueFn item = value := by
  unfold bucketValues
  rw [(perm_insertionSort _ _).mem_iff, mem_dedup, mem_map]

theorem flatMap_parts_perm :
    ((parts records dimension valueFn).flatMap fun p => p.2).Perm records := by
  unfold parts
  split_ifs with hempty
  · rw [hempty]
    exact .refl _
  · rw [flatMap_map]
    exact Accounting.flatMap_filter_perm nodup_bucketValues valueFn fun item hitem =>
      mem_bucketValues.mpr ⟨item, hitem, rfl⟩

variable {p : String × List ρ}

theorem sublist_of_mem_parts (h : p ∈ parts records dimension valueFn) :
    p.2.Sublist records := by
  unfold parts at h
  split_ifs at h with hempty
  · rw [mem_singleton.mp h]
    exact nil_sublist _
  · obtain ⟨value, -, rfl⟩ := mem_map.mp h
    exact filter_sublist

theorem value_ne_of_mem_parts (hvalues : ∀ item ∈ records, valueFn item ≠ "")
    (hempty : _emptyValue dimension ≠ "")
    (h : p ∈ parts records dimension valueFn) : p.1 ≠ "" := by
  unfold parts at h
  split_ifs at h with hrecords
  · rw [mem_singleton.mp h]
    exact hempty
  · obtain ⟨value, hvalue, rfl⟩ := mem_map.mp h
    obtain ⟨item, hitem, rfl⟩ := mem_bucketValues.mp hvalue
    exact hvalues item hitem

theorem tally_parts [AddMonoid M] (tally : List ρ → M) (hnil : tally [] = 0)
    (happend : ∀ xs ys, tally (xs ++ ys) = tally xs + tally ys)
    (hperm : ∀ xs ys, xs.Perm ys → tally xs = tally ys) {g : σ → M}
    (h : List.Forall₂ (fun p s => g s = tally p.2) (parts records dimension valueFn) segments) :
    (segments.map g).sum = tally records := by
  have hparts : ((parts records dimension valueFn).flatMap fun p => p.2).Perm records :=
    flatMap_parts_perm
  rw [← hperm _ _ hparts]
  clear hparts
  generalize parts records dimension valueFn = ps at h ⊢
  induction h with
  | nil => exact hnil.symm
  | cons hsegment _ ih =>
    rw [map_cons, sum_cons, flatMap_cons, happend, hsegment, ih]

theorem flatMap_perm {α β γ : Type} {u : α → List γ} {w : β → List γ} {xs : List α} {ys : List β}
    (h : List.Forall₂ (fun x y => (w y).Perm (u x)) xs ys) : (ys.flatMap w).Perm (xs.flatMap u) := by
  induction h with
  | nil => exact .refl _
  | cons hperm _ ih =>
    rw [flatMap_cons, flatMap_cons]
    exact hperm.append ih

end Parts

/-- Segments among which trades are divided. -/
structure Divided (ms : List TradePerformanceMetric) (segments : List TradeSegment) : Prop where
  members : (segments.flatMap fun s => s.memberTradeSha256).Perm (ms.map fun m => m.tradeSha256)
  wins : (segments.map fun s => s.winningTrades).sum =
    (ms.map fun m => m.realized).countP fun d => 0 < d
  losses : (segments.map fun s => s.losingTrades).sum =
    (ms.map fun m => m.realized).countP fun d => d < 0
  breakeven : (segments.map fun s => s.breakevenTrades).sum =
    (ms.map fun m => m.realized).countP fun d : Decimal => decide (d ≈ 0)

section Report
variable {f b : ℕ} {report : PerformanceMetricsReport} {dimension : SegmentDimension}
  {segments : List TradeSegment}

theorem segmentsOf_parts (h : tradeSegments report dimension = .ok segments) :
    List.Forall₂ (fun p s => p.2.Sublist report.trades ∧ SegmentOf p.2 s)
      (parts report.trades dimension (tradeValue report dimension)) segments :=
  (List.forall₂_and_left _ _).mpr ⟨fun _ hp => sublist_of_mem_parts hp,
    (groupRecords_eq_ok.mp h).2.imp fun _ _ hsegment => segmentOf_of_tradeSegment hsegment⟩

theorem sum_countP (h : tradeSegments report dimension = .ok segments) {g : TradeSegment → ℕ}
    {P : Decimal → Bool}
    (hg : ∀ ms s, SegmentOf ms s → g s = (ms.map fun m => m.realized).countP P) :
    (segments.map g).sum = (report.trades.map fun m => m.realized).countP P := by
  refine tally_parts (fun ms => (ms.map fun m => m.realized).countP P) rfl ?_ ?_
    ((segmentsOf_parts h).imp fun p s hsegment => hg p.2 s hsegment.2)
  · intro xs ys
    rw [map_append, countP_append]
  · intro xs ys hperm
    exact (hperm.map _).countP_eq P

theorem divided_of_tradeSegments (h : tradeSegments report dimension = .ok segments) :
    Divided report.trades segments := by
  refine ⟨?_, sum_countP h fun _ _ hs => hs.wins, sum_countP h fun _ _ hs => hs.losses,
    sum_countP h fun _ _ hs => hs.breakeven⟩
  have hmembers := flatMap_perm ((segmentsOf_parts h).imp fun p s hsegment => hsegment.2.members)
  rw [← map_flatMap] at hmembers
  exact hmembers.trans (flatMap_parts_perm.map _)

theorem sum_exact (h : tradeSegments report dimension = .ok segments)
    (hfit : MetricsFit f b report.trades) {g : TradeSegment → ℚ} {u : TradePerformanceMetric → ℚ}
    (hg : ∀ ms s, MetricsFit f b ms → SegmentOf ms s → g s = (ms.map u).sum) :
    (segments.map g).sum = (report.trades.map u).sum := by
  refine tally_parts (fun ms => (ms.map u).sum) rfl ?_ ?_
    ((segmentsOf_parts h).imp fun p s hsegment => hg p.2 s (hfit.sublist hsegment.1) hsegment.2)
  · intro xs ys
    rw [map_append, sum_append]
  · intro xs ys hperm
    exact (hperm.map u).sum_eq

theorem tradeValue_ne (report : PerformanceMetricsReport) (dimension : SegmentDimension)
    (m : TradePerformanceMetric) : tradeValue report dimension m ≠ "" := by
  unfold tradeValue
  split
  · cases report.symbol <;> decide
  · exact (by decide : unattributedStrategyIdentity ≠ "")
  · exact (by decide : insufficientEvidence ≠ "")

theorem emptyValue_ne (dimension : SegmentDimension) : _emptyValue dimension ≠ "" := by
  cases dimension <;> decide

theorem tradeSegments_eq_ok (hfit : MetricsFit f b report.trades)
    (hdimension : dimension ∈ tradeDimensions)
    (hdistinct : (report.trades.map fun m => m.tradeSha256).Nodup)
    (hlength : report.trades.length ≤ maxSegmentMembers) :
    ∃ segments, tradeSegments report dimension = .ok segments := by
  have hvalues := fun m (_ : m ∈ report.trades) => tradeValue_ne report dimension m
  have hsegments : ∀ p ∈ parts report.trades dimension (tradeValue report dimension),
      ∃ s, _tradeSegment dimension p.1 p.2 = .ok s := by
    intro p hp
    have hsub := sublist_of_mem_parts hp
    exact tradeSegment_eq_ok (hfit.sublist hsub) hdimension
      (value_ne_of_mem_parts hvalues (emptyValue_ne dimension) hp)
      (hdistinct.sublist (hsub.map _)) (hsub.length_le.trans hlength)
  obtain ⟨segments, hmap⟩ := exists_mapM hsegments
  exact ⟨segments, groupRecords_eq_ok.mpr ⟨hvalues, mapM_eq_ok.mp hmap⟩⟩

end Report

end Segmentation

open PerformanceMetrics Segmentation

section Law
variable {f b : ℕ} {r : PaperTradeReconstruction} {ms : List TradePerformanceMetric}

theorem sum_realized (hr : r.Sound) (hfit : AmountsFit f b r.completed) (h : MeasuredBy r ms)
    (hpays : ∀ t ∈ r.completed, t.PaysItsCosts) : (ms.map fun m => m.realized.toRat).sum =
      (ms.map fun m => m.exitGross.toRat).sum - (ms.map fun m => m.entryGross.toRat).sum -
        (ms.map fun m => m.fee.toRat).sum := by
  have hitem : ∀ m ∈ ms, m.realized.toRat = m.exitGross.toRat - m.entryGross.toRat - m.fee.toRat := by
    intro m hm
    obtain ⟨t, ht, hmeasures⟩ := exists_measures h hm
    have hexact := hfit.exact ht (hr.sums t ht)
    have hentry := (hpays t ht).entry
    have hexit := (hpays t ht).exit
    rw [TradePerformanceMetric.realized, hmeasures.realized, TradePerformanceMetric.exitGross,
      hmeasures.exitGross, TradePerformanceMetric.entryGross, hmeasures.entryGross,
      TradePerformanceMetric.fee, hmeasures.fee, hexact.realized, hexact.fee, hentry, hexit]
    ring
  rw [map_congr_left hitem, sum_map_sub, sum_map_sub]

/-- The segments of a dimension, against the trades and the report. -/
structure Conserved (r : PaperTradeReconstruction) (report : PerformanceMetricsReport)
    (segments : List TradeSegment) : Prop where
  members : (segments.flatMap fun s => s.memberTradeSha256).Perm
    (r.completed.map fun t => t.tradeSha256)
  distinct : (segments.flatMap fun s => s.memberTradeSha256).Nodup
  wins : (segments.map fun s => s.winningTrades).sum = report.values.winningTrades
  losses : (segments.map fun s => s.losingTrades).sum = report.values.losingTrades
  breakeven : (segments.map fun s => s.breakevenTrades).sum = report.values.breakevenTrades

variable {report : PerformanceMetricsReport}

theorem conserved_of_tradeSegments {dimension : SegmentDimension}
    {segments : List TradeSegment} (hreport : calculatePerformanceMetrics r = .ok report)
    (h : tradeSegments report dimension = .ok segments) : Conserved r report segments := by
  have hdivided := divided_of_tradeSegments h
  have haggregated := report.aggregated
  have hdigests : report.trades.map (fun m => m.tradeSha256) =
      r.completed.map fun t => t.tradeSha256 :=
    map_eq_of_measures (measuredBy_of_calculate hreport) fun t m hmeasures => hmeasures.digest
  refine ⟨hdigests ▸ hdivided.members, hdivided.members.nodup_iff.mpr report.distinct, ?_, ?_, ?_⟩
  · rw [hdivided.wins, haggregated.wins]
  · rw [hdivided.losses, haggregated.losses]
  · rw [hdivided.breakeven, haggregated.breakeven]

/-- The amounts of a report and of its segments. -/
structure ExactReport (r : PaperTradeReconstruction) (report : PerformanceMetricsReport) : Prop where
  drawdown : IsGreatest
    (Series.declines (r.completed.map fun t => (amount t.realizedPnlQuote).toRat))
    (amount report.values.maximumRealizedDrawdownQuote).toRat
  paid : (∀ t ∈ r.completed, t.PaysItsCosts) → (amount report.values.realizedPnlQuote).toRat =
    (amount report.values.grossPnlQuote).toRat - (amount report.values.totalFeeQuote).toRat
  segments : ∀ dimension ∈ tradeDimensions, ∃ segments,
    tradeSegments report dimension = .ok segments ∧
      (segments.map fun s => (amount s.realizedPnlQuote).toRat).sum =
        (amount report.values.realizedPnlQuote).toRat ∧
      (segments.map fun s => (amount s.totalCostQuote).toRat).sum =
        (amount report.values.totalCostQuote).toRat

theorem exactReport (hr : r.Sound) (hfit : AmountsFit f b r.completed)
    (hreport : calculatePerformanceMetrics r = .ok report) :
    ExactReport r report := by
  have hmeasured := measuredBy_of_calculate hreport
  have hmetrics := metricsFit_of_measuredBy hr hfit hmeasured
  have hsums := report.aggregated.exact hmetrics
  constructor
  · have hdrawdown := report.aggregated.drawdown_isGreatest hmetrics
    rwa [map_eq_of_measures hmeasured fun t m hmeasures => by
      rw [TradePerformanceMetric.realized, hmeasures.realized]] at hdrawdown
  · intro hpays
    rw [hsums.realized, hsums.gross, hsums.fee]
    exact sum_realized hr hfit hmeasured hpays
  · intro dimension hdimension
    have hlength : report.trades.length ≤ maxSegmentMembers := by
      rw [← hmeasured.length_eq]
      exact hr.length
    obtain ⟨segments, hsegments⟩ := tradeSegments_eq_ok hmetrics hdimension report.distinct hlength
    refine ⟨segments, hsegments, ?_, ?_⟩
    · rw [hsums.realized]
      exact sum_exact hsegments hmetrics fun ms s hms hs => (hs.exact hms).1
    · rw [hsums.cost]
      exact sum_exact hsegments hmetrics fun ms s hms hs => (hs.exact hms).2

end Law

section Unit

def Writable (d : Decimal) : Prop := Moderate 1000 d ∧ d.exponent ≤ 0

theorem Writable.canonical {d : Decimal} (h : Writable d) :
    Canonical d.fixed ∧ amount d.fixed = d := by
  obtain ⟨hmoderate, he⟩ := h
  have hlow := hmoderate.low
  have hdigits := hmoderate.digits
  obtain ⟨hpos, hfraction, hcoefficient⟩ := room_fixedChars d.coefficient he
  have hlength : (fixedChars d.coefficient d.exponent).length ≤ d.fixed.length := by
    unfold fixed
    rw [String.length_ofList]
    cases d.negative <;> simp
  have hread : Numeral.ofString d.fixed = some (.finite d) := by
    apply Numeral.ofString_fixed_of_nonpos he
    · unfold adjusted maxEmax
      omega
    · unfold minEtiny
      omega
  obtain ⟨hreads, hamount⟩ := reads_of_ofString hread
  refine ⟨⟨signedText_fixed (by omega) he (hcoefficient.trans_le ?_) (by omega), hreads⟩, hamount⟩
  exact Nat.pow_le_pow_right (by norm_num) (by omega)

/-- What a fill moves: what is traded, what it costs, and the cash. -/
structure Moved where
  gross : Decimal
  fee : Decimal
  cash : Decimal

structure Moved.Accepted (action : TradeAction) (m : Moved) : Prop where
  written : ∀ d ∈ [m.gross, m.fee, m.cash], Writable d
  gross : 0 < m.gross.toRat
  fee : 0 ≤ m.fee.toRat
  cash : match action with
    | .enterLong => m.cash.toRat < 0
    | .exitLong => 0 < m.cash.toRat

def unitDigest : String := String.ofList (List.replicate 64 'a')

/-- A fill of one unit. -/
def unitFill (action : TradeAction) (time : ℤ) (m : Moved) : FillEvent where
  fillEventSha256 := unitDigest
  authorizationSha256 := unitDigest
  intentSha256 := unitDigest
  orderStateSha256 := unitDigest
  fillStepSha256 := unitDigest
  fillIndex := 0
  payload := {
    action
    symbol := .btcusdt
    decisionTimeMs := time
    fillTimeMs := time
    quantity := "1"
    referencePrice := "1"
    reason := "SCRIPTED"
    feeBps := "0"
    slippageBps := "0"
    executionPrice := "1"
    grossQuote := m.gross.fixed
    feeQuote := m.fee.fixed
    slippageQuote := "0"
    cashDelta := m.cash.fixed
    assetDelta := match action with
      | .enterLong => "1"
      | .exitLong => "-1" }

/-- What an accepted fill holds of what it moves. -/
structure Holds (f : AcceptedTradeFill) (action : TradeAction) (time : ℤ) (m : Moved) : Prop where
  action : f.action = action
  symbol : f.symbol = .btcusdt
  quantity : f.quantity = "1"
  time : f.fillTimeMs = time
  gross : f.grossQuote = m.gross.fixed
  fee : f.feeQuote = m.fee.fixed
  slippage : f.slippageQuote = "0"
  cash : f.cashDelta = m.cash.fixed

theorem canonical_short : Canonical "1" ∧ Canonical "0" ∧ Canonical "-1" :=
  ⟨⟨by decide, by decide⟩, ⟨by decide, by decide⟩, ⟨by decide, by decide⟩⟩

theorem sha_unitDigest (label : String) : _sha unitDigest label = .ok () :=
  raiseIf_neg (not_not.mpr (by decide))

theorem acceptedFill_unit {action : TradeAction} {time : ℤ} {m : Moved} (htime : 0 ≤ time)
    (h : m.Accepted action) :
    ∃ f, _acceptedFill (unitFill action time m) = .ok f ∧ Holds f action time m := by
  have hwritten := fun d hd => (h.written d hd).canonical
  obtain ⟨hgross, hgrossValue⟩ := hwritten m.gross (by simp)
  obtain ⟨hfee, hfeeValue⟩ := hwritten m.fee (by simp)
  obtain ⟨hcash, hcashValue⟩ := hwritten m.cash (by simp)
  obtain ⟨hone, hzero, hminus⟩ := canonical_short
  have hidentity : ¬ ((0 : ℤ) < 0 ∨ time < 0 ∨ time < time ∨ "SCRIPTED" = "") := by
    simp only [not_or, lt_irrefl, not_lt, htime, not_false_eq_true, true_and]
    decide
  have hbounds : ¬ (amount "1" ≤ 0 ∨ amount "1" ≤ 0 ∨ amount "1" ≤ 0 ∨ m.gross ≤ 0 ∨ m.fee < 0 ∨
      amount "0" < 0 ∨ amount "0" < 0 ∨ amount "0" < 0) := by
    have hunit : ¬ amount "1" ≤ 0 := by decide
    have hfree : ¬ amount "0" < 0 := by decide
    simp only [not_or, hunit, hfree, not_false_eq_true, true_and, and_true, le_def, lt_def, not_le,
      not_lt, toRat_zero]
    exact ⟨h.gross, h.fee⟩
  refine ⟨_, construct_of_ok ?_, rfl, rfl, rfl, rfl, rfl, rfl, rfl, rfl⟩
  unfold AcceptedTradeFill.Fields.postInit unitFill
  dsimp only
  simp only [sha_unitDigest, ok_bind, raiseIf_neg hidentity, hone._decimal_eq, hzero._decimal_eq,
    hgross._decimal_eq, hfee._decimal_eq, hcash._decimal_eq, hgrossValue, hfeeValue, hcashValue,
    raiseIf_neg hbounds]
  have hpaid := h.cash
  cases action with
  | enterLong =>
    rw [hone._decimal_eq, ok_bind]
    dsimp only at hpaid ⊢
    apply raiseIf_neg
    simp only [not_or, le_def, not_le, toRat_zero, not_not]
    exact ⟨hpaid, by decide⟩
  | exitLong =>
    rw [hminus._decimal_eq, ok_bind]
    dsimp only at hpaid ⊢
    apply raiseIf_neg
    simp only [not_or, le_def, not_le, toRat_zero, not_not]
    exact ⟨hpaid, by decide⟩

structure Paired (bought sold : Moved) : Prop where
  entry : bought.Accepted .enterLong
  exit : sold.Accepted .exitLong
  realized : Writable (add decimalPrecision bought.cash sold.cash)
  fee : Writable (add decimalPrecision bought.fee sold.fee)

structure HoldsTrade (t : CompletedPaperTrade) (bought sold : Moved) : Prop where
  index : t.tradeIndex = 0
  symbol : t.symbol = .btcusdt
  entry : Holds t.entry .enterLong 1 bought
  exit : Holds t.exit .exitLong 2 sold
  realized : t.realizedPnlQuote = (add decimalPrecision bought.cash sold.cash).fixed
  fee : t.totalFeeQuote = (add decimalPrecision bought.fee sold.fee).fixed
  slippage : t.totalSlippageQuote = "0"

variable {bought sold : Moved} {f g : AcceptedTradeFill} {t : CompletedPaperTrade}

theorem completedTrade_unit (h : Paired bought sold)
    (hf : Holds f .enterLong 1 bought) (hg : Holds g .exitLong 2 sold) :
    ∃ t, _completedTrade .btcusdt 0 f g = .ok t ∧ t.entry = f ∧ t.exit = g ∧
      HoldsTrade t bought sold := by
  obtain ⟨hrealized, hrealizedValue⟩ := h.realized.canonical
  obtain ⟨hfee, hfeeValue⟩ := h.fee.canonical
  have hwritten := fun d hd => (h.entry.written d hd).canonical
  have hwritten' := fun d hd => (h.exit.written d hd).canonical
  obtain ⟨hentryFee, hentryFeeValue⟩ := hwritten bought.fee (by simp)
  obtain ⟨hentryCash, hentryCashValue⟩ := hwritten bought.cash (by simp)
  obtain ⟨hexitFee, hexitFeeValue⟩ := hwritten' sold.fee (by simp)
  obtain ⟨hexitCash, hexitCashValue⟩ := hwritten' sold.cash (by simp)
  have hzero := canonical_short.2.1
  have hslippage : (add decimalPrecision (amount "0") (amount "0")).fixed = "0" := by decide
  have hidentity : ¬ ((0 : ℤ) < 0 ∨ f.symbol ≠ .btcusdt ∨ g.symbol ≠ .btcusdt ∨
      f.action ≠ .enterLong ∨ g.action ≠ .exitLong ∨ f.quantity ≠ g.quantity ∨
      g.fillTimeMs < f.fillTimeMs ∨ g.fillTimeMs - f.fillTimeMs ≠ g.fillTimeMs - f.fillTimeMs) := by
    simp [hf.symbol, hg.symbol, hf.action, hg.action, hf.quantity, hg.quantity, hf.time, hg.time]
  unfold _completedTrade
  simp only [hf.cash, hg.cash, hf.fee, hg.fee, hf.slippage, hg.slippage, hentryCash._decimal_eq,
    hexitCash._decimal_eq, hentryFee._decimal_eq, hexitFee._decimal_eq, hzero._decimal_eq, ok_bind,
    hentryCashValue, hexitCashValue, hentryFeeValue, hexitFeeValue, hslippage]
  refine ⟨_, construct_of_ok ?_, rfl, rfl, rfl, rfl, hf, hg, rfl, rfl, rfl⟩
  unfold CompletedPaperTrade.Fields.postInit
  dsimp only
  simp only [Nat.cast_zero, raiseIf_neg hidentity, hf.cash, hg.cash, hf.fee, hg.fee, hf.slippage,
    hg.slippage, hentryCash._decimal_eq, hexitCash._decimal_eq, hentryFee._decimal_eq,
    hexitFee._decimal_eq, hzero._decimal_eq, hrealized._decimal_eq, hfee._decimal_eq, ok_bind,
    hentryCashValue, hexitCashValue, hentryFeeValue, hexitFeeValue, hrealizedValue, hfeeValue]
  apply raiseIf_neg
  simp only [not_or, not_not]
  exact ⟨trivial, trivial, by decide⟩

def unitPortfolio (bought sold : Moved) : FinalPortfolioEvidence.Fields where
  projectionSha256 := unitDigest
  position := .flat
  assetQuantity := "0"
  costBasisQuote := "0"
  realizedPnlQuote := (add decimalPrecision bought.cash sold.cash).fixed
  totalFeeQuote := (add decimalPrecision bought.fee sold.fee).fixed
  totalSlippageQuote := "0"
  closedTrades := 1

/-- One trade of one unit, with its portfolio. -/
def unitEvidence (bought sold : Moved) : P5Evidence where
  snapshotTimeMs := 2
  symbol := .btcusdt
  timelineSha256 := unitDigest
  fills := [unitFill .enterLong 1 bought, unitFill .exitLong 2 sold]
  projection := some (unitPortfolio bought sold)
  bounded := (by decide : 2 ≤ maxRecords)

/-- The sums over one trade are those of the trade. -/
structure Reconciled (bought sold : Moved) : Prop where
  realized : sum decimalPrecision [add decimalPrecision bought.cash sold.cash] ≈
    add decimalPrecision bought.cash sold.cash
  fee : sum decimalPrecision [bought.fee, sold.fee] ≈ add decimalPrecision bought.fee sold.fee
  costs : 0 ≤ (add decimalPrecision bought.fee sold.fee).toRat

theorem buildEpisodes_unit
    (hf : _acceptedFill (unitFill .enterLong 1 bought) = .ok f) (hf' : Holds f .enterLong 1 bought)
    (hg : _acceptedFill (unitFill .exitLong 2 sold) = .ok g) (hg' : Holds g .exitLong 2 sold)
    (ht : _completedTrade .btcusdt 0 f g = .ok t) :
    _buildEpisodes .btcusdt (unitEvidence bought sold).fills = .ok ⟨[t], none, [f, g]⟩ := by
  have hquantity : ¬ g.quantity ≠ f.quantity := by
    rw [hf'.quantity, hg'.quantity]
    exact not_not.mpr rfl
  have hfirst : Episodes.next .btcusdt ⟨[], none, []⟩ (unitFill .enterLong 1 bought) =
      .ok ⟨[], some f, [f]⟩ := by
    unfold Episodes.next
    rw [hf, ok_bind]
    dsimp only
    rw [hf'.action]
    rfl
  have hsecond : Episodes.next .btcusdt ⟨[], some f, [f]⟩ (unitFill .exitLong 2 sold) =
      .ok ⟨[t], none, [f, g]⟩ := by
    unfold Episodes.next
    rw [hg, ok_bind]
    dsimp only
    rw [hg'.action]
    dsimp only
    rw [raiseIf_neg hquantity, ok_bind, length_nil, ht, ok_bind]
    rfl
  unfold _buildEpisodes unitEvidence
  rw [foldlM_cons, hfirst, ok_bind, foldlM_cons, hsecond]
  rfl

theorem portfolio_unit (h : Paired bought sold) (hreconciled : Reconciled bought sold) :
    ∃ p, _portfolioEvidence (unitEvidence bought sold).projection = .ok (some p) ∧
      p.toFields = unitPortfolio bought sold := by
  obtain ⟨hrealized, -⟩ := h.realized.canonical
  obtain ⟨hfee, hfeeValue⟩ := h.fee.canonical
  have hzero := canonical_short.2.1
  have hbounds : ¬ (amount "0" < 0 ∨ amount "0" < 0 ∨
      add decimalPrecision bought.fee sold.fee < 0 ∨ amount "0" < 0) := by
    have hfree : ¬ amount "0" < 0 := by decide
    simp only [hfree, false_or, or_false, lt_def, toRat_zero, not_lt]
    exact hreconciled.costs
  have hflat : ¬ ¬ (PortfolioPosition.flat = .flat ↔ amount "0" ≈ 0 ∧ amount "0" ≈ 0) := by decide
  have hvalid : (unitPortfolio bought sold).postInit = .ok () := by
    unfold FinalPortfolioEvidence.Fields.postInit unitPortfolio
    dsimp only
    rw [sha_unitDigest, ok_bind, raiseIf_neg (by decide), ok_bind, hzero._decimal_eq, ok_bind,
      hzero._decimal_eq, ok_bind, hrealized._decimal_eq, ok_bind, hfee._decimal_eq, ok_bind,
      hzero._decimal_eq, ok_bind, hfeeValue, raiseIf_neg hbounds, ok_bind, raiseIf_neg hflat]
  refine ⟨⟨_, hvalid⟩, ?_, rfl⟩
  unfold unitEvidence _portfolioEvidence FinalPortfolioEvidence.build
  dsimp only
  rw [construct_of_ok hvalid]
  rfl

theorem reconcile_unit
    {p : FinalPortfolioEvidence} (h : Paired bought sold) (hreconciled : Reconciled bought sold)
    (hf : Holds f .enterLong 1 bought) (hg : Holds g .exitLong 2 sold) (ht : HoldsTrade t bought sold)
    (hp : p.toFields = unitPortfolio bought sold) :
    _reconcile ⟨[t], none, [f, g]⟩ (some p) = .ok () := by
  obtain ⟨hrealized, hrealizedValue⟩ := h.realized.canonical
  obtain ⟨hfee, hfeeValue⟩ := h.fee.canonical
  obtain ⟨hbought, hboughtValue⟩ := (h.entry.written bought.fee (by simp)).canonical
  obtain ⟨hsold, hsoldValue⟩ := (h.exit.written sold.fee (by simp)).canonical
  have hzero := canonical_short.2.1
  have htotals : _reconcileTotals ⟨[t], none, [f, g]⟩ p = .ok () := by
    unfold _reconcileTotals
    simp only [mapM_cons, mapM_nil, pure_bind, ht.realized, hf.fee, hg.fee, hf.slippage,
      hg.slippage, hp, unitPortfolio, hrealized._decimal_eq, hbought._decimal_eq, hsold._decimal_eq,
      hfee._decimal_eq, hzero._decimal_eq, ok_bind, hrealizedValue, hboughtValue, hsoldValue,
      hfeeValue]
    apply raiseIf_neg
    simp only [not_or, not_not]
    exact ⟨hreconciled.realized, hreconciled.fee, by decide⟩
  have hbalances : _reconcileBalances ⟨[t], none, [f, g]⟩ p = .ok () := by
    unfold _reconcileBalances
    simp only [hp, unitPortfolio, hzero._decimal_eq, ok_bind]
    exact raiseIf_neg (by decide)
  unfold _reconcile
  rw [if_neg (cons_ne_nil _ _)]
  dsimp only
  rw [htotals, ok_bind, hbalances]

/-- The evidence of one trade is reconstructed. -/
theorem reconstruct_unit (h : Paired bought sold) (hreconciled : Reconciled bought sold) : ∃ r t,
      reconstructPaperTrades (unitEvidence bought sold) = .ok r ∧ r.completed = [t] ∧
        HoldsTrade t bought sold := by
  obtain ⟨f, hf, hf'⟩ := acceptedFill_unit (by decide : (0 : ℤ) ≤ 1) h.entry
  obtain ⟨g, hg, hg'⟩ := acceptedFill_unit (by decide : (0 : ℤ) ≤ 2) h.exit
  obtain ⟨t, ht, -, -, ht'⟩ := completedTrade_unit h hf' hg'
  obtain ⟨p, hp, hp'⟩ := portfolio_unit h hreconciled
  have hepisodes := buildEpisodes_unit hf hf' hg hg' ht
  have hreconcile := reconcile_unit h hreconciled hf' hg' ht' hp'
  have hindexes : ¬ [t].map (·.tradeIndex) ≠ (range [t].length).map Int.ofNat := by
    simp [ht'.index]
  have hsymbol : ¬ ∃ u ∈ [t], u.symbol ≠ .btcusdt := by
    simp [ht'.symbol]
  have hclosed : ¬ p.closedTrades ≠ [t].length := by
    simp [hp', unitPortfolio]
  unfold reconstructPaperTrades
  rw [show (unitEvidence bought sold).symbol = .btcusdt from rfl, hepisodes, ok_bind, hp, ok_bind,
    hreconcile, ok_bind]
  dsimp only [Option.mapM_none]
  refine ⟨_, t, construct_of_ok ?_, rfl, ht'⟩
  unfold PaperTradeReconstruction.Fields.postInit
  dsimp only
  rw [show (unitEvidence bought sold).snapshotTimeMs = 2 from rfl,
    show (unitEvidence bought sold).timelineSha256 = unitDigest from rfl, raiseIf_neg (by decide),
    ok_bind, sha_unitDigest, ok_bind, raiseIf_neg hindexes, ok_bind, raiseIf_neg hsymbol, ok_bind,
    raiseIf_neg (by simp), ok_bind,
    raiseIf_neg (by simp [PaperTradeReconstruction.Fields.expectedStatus]), ok_bind,
    raiseIf_neg hclosed]

/-- Numbers of which the metrics of one trade can be written out. -/
structure Measured (bought sold : Moved) : Prop where
  gain : Moderate 1000 (sub decimalPrecision sold.gross bought.gross)
  cashOut : Writable (neg decimalPrecision bought.cash)
  paid : 0 < (neg decimalPrecision bought.cash).toRat
  entries : 0 < (sum decimalPrecision [bought.gross]).toRat
  cashOuts : 0 < (sum decimalPrecision [neg decimalPrecision bought.cash]).toRat

/-- The amounts of a trade of one unit, read back. -/
structure ReadBack (t : CompletedPaperTrade) (bought sold : Moved) : Prop where
  entryGross : amount t.entry.grossQuote = bought.gross
  exitGross : amount t.exit.grossQuote = sold.gross
  entryCash : amount t.entry.cashDelta = bought.cash
  exitCash : amount t.exit.cashDelta = sold.cash
  entryFee : amount t.entry.feeQuote = bought.fee
  exitFee : amount t.exit.feeQuote = sold.fee
  entrySlippage : amount t.entry.slippageQuote = 0
  exitSlippage : amount t.exit.slippageQuote = 0
  realized : amount t.realizedPnlQuote = add decimalPrecision bought.cash sold.cash
  fee : amount t.totalFeeQuote = add decimalPrecision bought.fee sold.fee
  slippage : amount t.totalSlippageQuote = 0

theorem HoldsTrade.readBack (h : Paired bought sold)
    (ht : HoldsTrade t bought sold) : ReadBack t bought sold := by
  have hbought := fun d hd => (h.entry.written d hd).canonical.2
  have hsold := fun d hd => (h.exit.written d hd).canonical.2
  have hzero : amount "0" = 0 := by decide
  constructor
  · rw [ht.entry.gross, hbought _ (by simp)]
  · rw [ht.exit.gross, hsold _ (by simp)]
  · rw [ht.entry.cash, hbought _ (by simp)]
  · rw [ht.exit.cash, hsold _ (by simp)]
  · rw [ht.entry.fee, hbought _ (by simp)]
  · rw [ht.exit.fee, hsold _ (by simp)]
  · rw [ht.entry.slippage, hzero]
  · rw [ht.exit.slippage, hzero]
  · rw [ht.realized, h.realized.canonical.2]
  · rw [ht.fee, h.fee.canonical.2]
  · rw [ht.slippage, hzero]

/-- The report of one trade. -/
theorem report_unit (h : Paired bought sold)
    (hreconciled : Reconciled bought sold) (hmeasured : Measured bought sold) : ∃ r t report,
      reconstructPaperTrades (unitEvidence bought sold) = .ok r ∧ r.completed = [t] ∧
        ReadBack t bought sold ∧ calculatePerformanceMetrics r = .ok report ∧
          report.values.realizedPnlQuote =
            (sum decimalPrecision [add decimalPrecision bought.cash sold.cash]).fixed ∧
          report.values.grossPnlQuote = (sub decimalPrecision (sum decimalPrecision [sold.gross])
            (sum decimalPrecision [bought.gross])).fixed ∧
          report.values.totalFeeQuote =
            (sum decimalPrecision [add decimalPrecision bought.fee sold.fee]).fixed := by
  obtain ⟨r, t, hr, hcompleted, ht⟩ := reconstruct_unit h hreconciled
  have hread := ht.readBack h
  have hmeasurable : Measurable t := by
    constructor
    · rw [hread.exitGross, hread.entryGross]
      exact hmeasured.gain
    · rw [hread.entryGross]
      exact (h.entry.written _ (by simp)).1
    · rw [hread.realized]
      exact h.realized.1
    · rw [hread.entryCash]
      exact hmeasured.cashOut.1
    · rw [hread.entryCash]
      exact hmeasured.paid
    · rw [hread.fee]
      exact hreconciled.costs
    · rw [hread.slippage, toRat_zero]
  have hone : ∀ ms, MeasuredBy r ms → ∃ m, ms = [m] ∧ Measures t m := by
    intro ms hms
    unfold MeasuredBy at hms
    rw [hcompleted, forall₂_cons_left_iff] at hms
    obtain ⟨m, rest, hm, hrest, rfl⟩ := hms
    rw [forall₂_nil_left_iff.mp hrest]
    exact ⟨m, rfl, hm⟩
  have hdenominators : ∀ ms, MeasuredBy r ms → ms = [] ∨ Denominators ms := by
    intro ms hms
    obtain ⟨m, rfl, hm⟩ := hone ms hms
    have hentry : m.entryGross = bought.gross := by
      rw [TradePerformanceMetric.entryGross, hm.entryGross, hread.entryGross]
    have hcash : m.cashOut = neg decimalPrecision bought.cash := by
      rw [TradePerformanceMetric.cashOut, hm.cashOut, hread.entryCash,
        hmeasured.cashOut.canonical.2]
    refine .inr ⟨?_, ?_⟩
    · rw [map_singleton, hentry]
      exact hmeasured.entries
    · rw [map_singleton, hcash]
      exact hmeasured.cashOuts
  obtain ⟨report, hreport⟩ := calculate_eq_ok (PaperTradeReconstruction.sound hr)
    (by simp [hcompleted]) (by simpa [hcompleted] using hmeasurable) hdenominators
  obtain ⟨m, htrades, hm⟩ := hone report.trades (measuredBy_of_calculate hreport)
  have haggregated := report.aggregated
  rw [htrades] at haggregated
  refine ⟨r, t, report, hr, hcompleted, hread, hreport, ?_, ?_, ?_⟩
  · rw [haggregated.realized, map_singleton, TradePerformanceMetric.realized, hm.realized,
      hread.realized]
  · rw [haggregated.gross, map_singleton, map_singleton, TradePerformanceMetric.exitGross,
      hm.exitGross, hread.exitGross, TradePerformanceMetric.entryGross, hm.entryGross,
      hread.entryGross]
  · rw [haggregated.fee, map_singleton, TradePerformanceMetric.fee, hm.fee, hread.fee]

instance (n : ℕ) (d : Decimal) : Decidable (Moderate n d) :=
  decidable_of_iff (-(n : ℤ) ≤ d.exponent ∧ d.exponent ≤ n ∧ digits d.coefficient ≤ n)
    ⟨fun h => ⟨h.1, h.2.1, h.2.2⟩, fun h => ⟨h.low, h.high, h.digits⟩⟩

/-- What can be checked of the two fills of a trade. -/
def Checked (bought sold : Moved) : Prop :=
  (∀ d ∈ [bought.gross, bought.fee, bought.cash, sold.gross, sold.fee, sold.cash,
      add decimalPrecision bought.cash sold.cash, add decimalPrecision bought.fee sold.fee,
      neg decimalPrecision bought.cash], Writable d) ∧
    (∀ d ∈ [bought.gross, sold.gross, sold.cash, neg decimalPrecision bought.cash,
      sum decimalPrecision [bought.gross], sum decimalPrecision [neg decimalPrecision bought.cash]],
        (0 : Decimal) < d) ∧
    (∀ d ∈ [bought.fee, sold.fee, add decimalPrecision bought.fee sold.fee], (0 : Decimal) ≤ d) ∧
    bought.cash < 0 ∧ Moderate 1000 (sub decimalPrecision sold.gross bought.gross) ∧
    sum decimalPrecision [add decimalPrecision bought.cash sold.cash] ≈
      add decimalPrecision bought.cash sold.cash ∧
    sum decimalPrecision [bought.fee, sold.fee] ≈ add decimalPrecision bought.fee sold.fee

instance (d : Decimal) : Decidable (Writable d) := by
  unfold Writable
  infer_instance

instance (bought sold : Moved) : Decidable (Checked bought sold) := by
  unfold Checked
  infer_instance

theorem Checked.paired (h : Checked bought sold) : Paired bought sold := by
  obtain ⟨hwritten, hpos, hnonneg, hcash, -⟩ := h
  simp only [lt_def, le_def, toRat_zero] at hpos hnonneg hcash
  constructor
  · have hbought : ∀ d ∈ [bought.gross, bought.fee, bought.cash], Writable d := by
      intro d hd
      apply hwritten
      simp only [mem_cons, not_mem_nil, or_false] at hd ⊢
      tauto
    exact ⟨hbought, hpos _ (by simp), hnonneg _ (by simp), hcash⟩
  · have hsold : ∀ d ∈ [sold.gross, sold.fee, sold.cash], Writable d := by
      intro d hd
      apply hwritten
      simp only [mem_cons, not_mem_nil, or_false] at hd ⊢
      tauto
    exact ⟨hsold, hpos _ (by simp), hnonneg _ (by simp), hpos sold.cash (by simp)⟩
  · exact hwritten _ (by simp)
  · exact hwritten _ (by simp)

theorem Checked.reconciled (h : Checked bought sold) : Reconciled bought sold := by
  obtain ⟨-, -, hnonneg, -, -, hrealized, hfee⟩ := h
  simp only [le_def, toRat_zero] at hnonneg
  exact ⟨hrealized, hfee, hnonneg _ (by simp)⟩

theorem Checked.measured (h : Checked bought sold) : Measured bought sold := by
  obtain ⟨hwritten, hpos, -, -, hgain, -⟩ := h
  simp only [lt_def, toRat_zero] at hpos
  exact ⟨hgain, hwritten _ (by simp), hpos _ (by simp), hpos _ (by simp), hpos _ (by simp)⟩

def sampleBought : Moved := ⟨⟨false, 100, 0⟩, ⟨false, 1, -1⟩, ⟨true, 1001, -1⟩⟩
def sampleSold : Moved := ⟨⟨false, 110, 0⟩, ⟨false, 11, -2⟩, ⟨false, 10989, -2⟩⟩
def unpaidBought : Moved := ⟨⟨false, 100, 0⟩, ⟨false, 1, -1⟩, ⟨true, 100, 0⟩⟩
def longBought : Moved := ⟨⟨false, 100, 0⟩, ⟨false, 1, -300⟩, ⟨true, 100 * 10 ^ 300 + 1, -300⟩⟩
def freeSold : Moved := ⟨⟨false, 110, 0⟩, ⟨false, 0, 0⟩, ⟨false, 110, 0⟩⟩

theorem ReadBack.paysItsCosts
    (h : ReadBack t bought sold) (hentry : bought.cash.toRat = -bought.gross.toRat - bought.fee.toRat)
    (hexit : sold.cash.toRat = sold.gross.toRat - sold.fee.toRat) : t.PaysItsCosts := by
  constructor
  · rw [h.entryCash, h.entryGross, h.entryFee, hentry]
  · rw [h.exitCash, h.exitGross, h.exitFee, hexit]

end Unit

/-- The metrics of reconstructed trades count every trade once, also by segments. Where the amounts
fit they are exact as well. -/
theorem metrics_conserve_trades {e : P5Evidence} {r : PaperTradeReconstruction}
    (h : reconstructPaperTrades e = .ok r) :
    (∀ report, calculatePerformanceMetrics r = .ok report →
      report.values.winningTrades + report.values.losingTrades + report.values.breakevenTrades =
          r.completed.length ∧
        ∀ dimension segments, tradeSegments report dimension = .ok segments →
          Conserved r report segments) ∧
      ∀ f b, AmountsFit f b r.completed → (r.completed.map fun t => t.tradeSha256).Nodup →
        ∃ report, calculatePerformanceMetrics r = .ok report ∧ ExactReport r report := by
  have hr := PaperTradeReconstruction.sound h
  refine ⟨?_, ?_⟩
  · intro report hreport
    refine ⟨?_, fun dimension segments => conserved_of_tradeSegments hreport⟩
    rw [report.aggregated.counts, report.aggregated.count,
      (measuredBy_of_calculate hreport).length_eq]
  · intro f b hfit hdistinct
    obtain ⟨report, hreport⟩ := calculate_eq_ok hr hdistinct
      (fun t ht => AmountsFit.measurable hr hfit ht)
      fun ms hms => (metricsFit_of_measuredBy hr hfit hms).denominators
    exact ⟨report, hreport, exactReport hr hfit hreport⟩

theorem metrics_conserve_trades_sample : ∃ r report,
    reconstructPaperTrades (unitEvidence sampleBought sampleSold) = .ok r ∧ r.completed.length = 1 ∧
      calculatePerformanceMetrics r = .ok report ∧
        report.values.winningTrades + report.values.losingTrades + report.values.breakevenTrades = 1 ∧
          ExactReport r report ∧ (amount report.values.realizedPnlQuote).toRat =
            (amount report.values.grossPnlQuote).toRat - (amount report.values.totalFeeQuote).toRat := by
  have hsample : Checked sampleBought sampleSold := by decide +kernel
  obtain ⟨r, t, report, hr, hcompleted, hread, -⟩ :=
    report_unit hsample.paired hsample.reconciled hsample.measured
  have hamounts : t.amounts = [⟨false, 100, 0⟩, ⟨false, 110, 0⟩, ⟨true, 1001, -1⟩, ⟨false, 10989, -2⟩,
      ⟨false, 1, -1⟩, ⟨false, 11, -2⟩, 0, 0] := by
    simp only [CompletedPaperTrade.amounts, List.map_cons, List.map_nil, hread.entryGross,
      hread.exitGross, hread.entryCash, hread.exitCash, hread.entryFee, hread.exitFee,
      hread.entrySlippage, hread.exitSlippage]
    rfl
  have hfit : AmountsFit 2 4 r.completed := by
    rw [hcompleted]
    refine ⟨by decide, ?_, ?_⟩
    · intro u hu
      rw [List.mem_singleton.mp hu, hamounts]
      decide
    · rw [List.flatMap_cons, List.flatMap_nil, List.append_nil, hamounts]
      decide +kernel
  have hpays : ∀ u ∈ r.completed, u.PaysItsCosts := by
    rw [hcompleted]
    intro u hu
    rw [List.mem_singleton.mp hu]
    exact hread.paysItsCosts (by decide +kernel) (by decide +kernel)
  obtain ⟨hcounts, hexact⟩ := metrics_conserve_trades hr
  obtain ⟨report, hreport, hreportExact⟩ := hexact 2 4 hfit (by simp [hcompleted])
  have hlength : r.completed.length = 1 := by rw [hcompleted]; rfl
  refine ⟨r, report, hr, hlength, hreport, ?_, hreportExact, hreportExact.paid hpays⟩
  rw [(hcounts report hreport).1, hlength]

/-- A result is what was traded less the fees neither where the cash of a fill is something else,
nor where the digits of the amounts do not fit the wide context. -/
theorem results_of_unpaid_and_long_costs :
    (∃ r report, reconstructPaperTrades (unitEvidence unpaidBought sampleSold) = .ok r ∧
      calculatePerformanceMetrics r = .ok report ∧
        (amount report.values.realizedPnlQuote).toRat ≠
          (amount report.values.grossPnlQuote).toRat - (amount report.values.totalFeeQuote).toRat) ∧
      ∃ r report, reconstructPaperTrades (unitEvidence longBought freeSold) = .ok r ∧
        (∀ t ∈ r.completed, t.PaysItsCosts) ∧ calculatePerformanceMetrics r = .ok report ∧
          (amount report.values.realizedPnlQuote).toRat ≠
            (amount report.values.grossPnlQuote).toRat - (amount report.values.totalFeeQuote).toRat := by
  have hwritten : ∀ d : Decimal, Writable d → amount d.fixed = d := fun d hd => hd.canonical.2
  have hunpaid : Checked unpaidBought sampleSold := by decide +kernel
  have hlong : Checked longBought freeSold := by decide +kernel
  refine ⟨?_, ?_⟩
  · obtain ⟨r, t, report, hr, -, -, hreport, hrealized, hgross, hfee⟩ :=
      report_unit hunpaid.paired hunpaid.reconciled hunpaid.measured
    refine ⟨r, report, hr, hreport, ?_⟩
    rw [hrealized, hgross, hfee, hwritten _ (by decide +kernel), hwritten _ (by decide +kernel),
      hwritten _ (by decide +kernel)]
    decide +kernel
  · obtain ⟨r, t, report, hr, hcompleted, hread, hreport, hrealized, hgross, hfee⟩ :=
      report_unit hlong.paired hlong.reconciled hlong.measured
    refine ⟨r, report, hr, ?_, hreport, ?_⟩
    · rw [hcompleted]
      intro u hu
      rw [List.mem_singleton.mp hu]
      exact hread.paysItsCosts (by decide +kernel) (by decide +kernel)
    · rw [hrealized, hgross, hfee, hwritten _ (by decide +kernel), hwritten _ (by decide +kernel),
        hwritten _ (by decide +kernel)]
      decide +kernel

end Analytics

end TradingLab
