import TradingLab.Backtest.Valuation
import TradingLab.Decimal.Congr
import TradingLab.Series.Drawdown

/-!
# What a report says about its curve

The loop over a curve watches the running peak. Its drawdown is the deepest fall
from a peak, as the context rounds it, with the amount of the first such fall;
where no difference of two equities is rounded, it is the deepest of all falls.
Every closed trade is a win, a loss or neither.
-/

namespace TradingLab

open Decimal Series Method Accounting List

namespace EquityCurve

def equities (points : List EquityPoint) : List Decimal :=
  points.map fun p => p.portfolio.equityQuote

def drawdownQuote (fall : Decimal × Decimal) : Decimal := sub decimalPrecision fall.1 fall.2

def drawdown (fall : Decimal × Decimal) : Decimal :=
  quotient decimalPrecision (drawdownQuote fall) fall.1

def depth (fall : Decimal × Decimal) : ℚ := (drawdown fall).toRat

/-- The results of the trades of a curve. -/
def tradePnls (first : EquityPoint) (rest : List EquityPoint) : List Decimal :=
  (rest.foldl (fun c p => c.next p.portfolio) (CurveState.init first.portfolio)).tradePnls

/-- No difference of two equities is rounded. -/
def ExactFalls (es : List Decimal) : Prop :=
  ∀ fall ∈ falls es, Representable decimalPrecision (fall.1.toRat - fall.2.toRat)

/-- What a drawdown and its amount are to the equities of a curve. -/
structure Deepest (es : List Decimal) (amount share : Decimal) (fall : Decimal × Decimal) :
    Prop where
  share : share.toRat = depth fall
  amount : amount.toRat = (drawdownQuote fall).toRat
  /-- The deepest fall from a running peak, and the first one as deep. -/
  peak : FirstDeepest toRat depth es fall
  /-- Without rounding also the deepest of all falls, and the first one as deep. -/
  all : ExactFalls es → (∀ other ∈ falls es, depth other ≤ depth fall) ∧
    ∃ before after, es = before ++ fall.2 :: after ∧ fall.1 ∈ before ++ [fall.2] ∧
      ∀ other ∈ falls before, depth other < depth fall

end EquityCurve

open EquityCurve

theorem depth_congr {p p' : Decimal} (e : Decimal) (h : p.toRat = p'.toRat) (hp : 0 < p.toRat) :
    depth (p, e) = depth (p', e) := by
  have hsub : sub decimalPrecision p e ≈ sub decimalPrecision p' e :=
    sub_congr decimalPrecision_pos h (equiv_refl e)
  exact quotient_congr decimalPrecision_pos hsub h fun hzero => hp.ne' ((toRat_eq_zero_iff p).mpr hzero)

theorem depth_self (p : Decimal) : depth (p, p) = 0 := by
  have hzero : (drawdownQuote (p, p)).coefficient = 0 := by
    rw [← toRat_eq_zero_iff, drawdownQuote]
    have hexact : p.toRat - p.toRat = 0 := sub_self _
    rw [toRat_sub decimalPrecision_pos (by rw [hexact]; exact representable_zero _), hexact]
  exact (quotient_zero decimalPrecision_pos hzero p).trans toRat_zero

/-- The loop of `_calculate` watches the peak. -/
structure CurveState.Watches (c : CurveState) (w : Watch Decimal) : Prop where
  peak : c.peak = w.peak
  drawdown : c.maxDrawdown.toRat = depth w.deepest
  amount : c.maxDrawdownQuote.toRat = (drawdownQuote w.deepest).toRat

theorem CurveState.watches_init (first : PortfolioSnapshot) :
    (CurveState.init first).Watches (.start first.equityQuote) where
  peak := rfl
  drawdown := toRat_zero.trans (depth_self _).symm
  amount := by
    have hexact : first.equityQuote.toRat - first.equityQuote.toRat = 0 := sub_self _
    exact toRat_zero.trans
      ((toRat_sub decimalPrecision_pos (by rw [hexact]; exact representable_zero _)).trans hexact).symm

variable {c : CurveState} {first : EquityPoint} {rest : List EquityPoint} {symbol : Symbol}

theorem CurveState.Watches.next {w : Watch Decimal} (h : c.Watches w) (point : PortfolioSnapshot) :
    (c.next point).Watches (w.next toRat depth point.equityQuote) := by
  obtain ⟨hpeak, hdrawdown, hamount⟩ := h
  unfold CurveState.next Watch.next
  dsimp only
  rw [hpeak]
  simp only [lt_def, hdrawdown]
  generalize (if w.peak.toRat < point.equityQuote.toRat then point.equityQuote else w.peak) = peak
  have hdepth : depth (peak, point.equityQuote) =
      (quotient decimalPrecision (sub decimalPrecision peak point.equityQuote) peak).toRat := rfl
  rw [hdepth]
  constructor
  · rfl
  · dsimp only
    split_ifs
    · rfl
    · exact hdrawdown
  · dsimp only
    split_ifs
    · rfl
    · exact hamount

theorem watches_foldl (first : EquityPoint) (rest : List EquityPoint) :
    (rest.foldl (fun c p => c.next p.portfolio) (CurveState.init first.portfolio)).Watches
      ((equities rest).foldl (Watch.next toRat depth) (.start first.portfolio.equityQuote)) := by
  induction rest using reverseRecOn with
  | nil => exact CurveState.watches_init first.portfolio
  | append_singleton rest p ih =>
    rw [equities, map_append, foldl_append, foldl_append]
    exact ih.next p.portfolio

variable {a e : Decimal} {R : EquityPoint → EquityPoint → Prop} {points : List EquityPoint}

/-- A higher start makes a fall deeper, unless the differences are rounded. -/
theorem depth_le {p : Decimal} (ha : 0 < a.toRat) (he : 0 < e.toRat)
    (hae : Representable decimalPrecision (a.toRat - e.toRat))
    (hpe : Representable decimalPrecision (p.toRat - e.toRat)) (hep : e.toRat ≤ p.toRat)
    (hap : a.toRat ≤ p.toRat) : depth (a, e) ≤ depth (p, e) := by
  have hp : 0 < p.toRat := ha.trans_le hap
  have hfrom : (drawdownQuote (a, e)).toRat = a.toRat - e.toRat := toRat_sub decimalPrecision_pos hae
  have hpeak : (drawdownQuote (p, e)).toRat = p.toRat - e.toRat := toRat_sub decimalPrecision_pos hpe
  apply quotient_mono decimalPrecision_pos ha _ hp
  · rw [hfrom, hpeak, sub_div, sub_div, div_self ha.ne', div_self hp.ne']
    have : e.toRat / p.toRat ≤ e.toRat / a.toRat := by gcongr
    linarith
  · rw [hpeak]
    linarith

theorem mem_of_mem_falls {es : List Decimal} (h : (a, e) ∈ falls es) :
    a ∈ es ∧ e ∈ es := by
  obtain ⟨before, after, rfl, ha⟩ := h
  simp only [mem_append, mem_singleton] at ha
  simp only [mem_append, mem_cons]
  tauto

theorem exists_deepest (hpos : ∀ e ∈ equities (first :: rest), 0 < e.toRat) :
    ∃ fall, Deepest (equities (first :: rest))
      (metricValues first.portfolio (rest.map fun p => p.portfolio)).maximumDrawdownQuote
      (metricValues first.portfolio (rest.map fun p => p.portfolio)).maximumDrawdown fall := by
  have hrank : DepthOfRank toRat depth (equities (first :: rest)) :=
    fun p hp p' _ e h => depth_congr e h (hpos p hp)
  have hsees := Watch.sees_foldl hrank
  have hwatch := watches_foldl first rest
  have hvalues : ∀ c : CurveState, (rest.map fun p => p.portfolio).foldl CurveState.next c =
      rest.foldl (fun c p => c.next p.portfolio) c := fun c => foldl_map
  unfold metricValues
  dsimp only
  rw [hvalues]
  refine ⟨_, hwatch.drawdown, hwatch.amount, hsees.deepest, fun hexact => ?_⟩
  refine hsees.deepest.falls_le fun a p e ha hp hep hap => ?_
  obtain ⟨hma, hme⟩ := mem_of_mem_falls ha
  exact depth_le (hpos a hma) (hpos e hme) (hexact _ ha) (hexact _ hp) hep hap

theorem countP_signs (pnls : List Decimal) :
    pnls.countP (fun pnl => 0 < pnl) + pnls.countP (fun pnl => pnl < 0) +
      pnls.countP (fun pnl : Decimal => decide (pnl ≈ 0)) = pnls.length := by
  induction pnls with
  | nil => rfl
  | cons pnl pnls ih =>
    simp only [countP_cons, length_cons, lt_def, equiv_def, toRat_zero, decide_eq_true_eq]
      at ih ⊢
    rcases lt_trichotomy pnl.toRat 0 with h | h | h
    · rw [if_neg h.le.not_gt, if_pos h, if_neg h.ne]
      omega
    · simp only [h, lt_irrefl, if_true, if_false]
      omega
    · rw [if_pos h, if_neg h.le.not_gt, if_neg h.ne']
      omega

theorem EquityPoint.Continues.delta {p q : EquityPoint} (h : p.Continues symbol q) :
    q.portfolio.closedTrades = p.portfolio.closedTrades ∧
        q.portfolio.realizedPnlQuote.toRat = p.portfolio.realizedPnlQuote.toRat ∨
      q.portfolio.closedTrades = p.portfolio.closedTrades + 1 := by
  unfold EquityPoint.Continues at h
  simp only [not_or, not_not, not_and] at h
  obtain ⟨-, -, -, -, -, hdelta, hsame⟩ := h
  by_cases h0 : q.portfolio.closedTrades - p.portfolio.closedTrades = 0
  · exact .inl ⟨by omega, hsame h0⟩
  · have h1 := hdelta h0
    exact .inr (by omega)

theorem length_tradePnls {p : EquityPoint} (h : (p :: rest).IsChain fun p q => p.Continues symbol q)
    (hc : c.previous = p.portfolio) :
    ((rest.foldl (fun c p => c.next p.portfolio) c).tradePnls.length : ℤ) =
      c.tradePnls.length + ((rest.getLastD p).portfolio.closedTrades - p.portfolio.closedTrades) := by
  induction rest generalizing p c with
  | nil => simp
  | cons q rest ih =>
    rw [isChain_cons_cons] at h
    rw [foldl_cons, ih h.2 rfl, getLastD_cons]
    unfold CurveState.next
    dsimp only
    rw [hc]
    rcases h.1.delta with ⟨hsame, -⟩ | hmore
    · rw [if_neg (by omega)]
      omega
    · rw [if_pos (by omega), length_append, length_singleton]
      push_cast
      omega

/-- The result of one point after another is taken without rounding. -/
def ExactResult (p q : EquityPoint) : Prop :=
  Representable decimalPrecision
    (q.portfolio.realizedPnlQuote.toRat - p.portfolio.realizedPnlQuote.toRat)

theorem sum_tradePnls {p : EquityPoint} (h : (p :: rest).IsChain fun p q => p.Continues symbol q)
    (hexact : (p :: rest).IsChain ExactResult) (hc : c.previous = p.portfolio) :
    ((rest.foldl (fun c p => c.next p.portfolio) c).tradePnls.map toRat).sum =
      (c.tradePnls.map toRat).sum + ((rest.getLastD p).portfolio.realizedPnlQuote.toRat -
        p.portfolio.realizedPnlQuote.toRat) := by
  induction rest generalizing p c with
  | nil => simp
  | cons q rest ih =>
    rw [isChain_cons_cons] at h hexact
    rw [foldl_cons, ih h.2 hexact.2 rfl, getLastD_cons]
    unfold CurveState.next
    dsimp only
    rw [hc]
    rcases h.1.delta with ⟨hsame, hresult⟩ | hmore
    · rw [if_neg (by omega), hresult]
    · rw [if_pos (by omega), map_append, sum_append, map_singleton,
        sum_singleton, toRat_sub decimalPrecision_pos hexact.1]
      ring

theorem PortfolioSnapshot.Clean.facts {p : PortfolioSnapshot} (h : p.Clean) : p.assetQuantity.toRat = 0 ∧
    0 < p.equityQuote.toRat ∧ p.closedTrades = 0 ∧ p.realizedPnlQuote.toRat = 0 := by
  unfold PortfolioSnapshot.Clean at h
  simp only [not_or, not_not, equiv_def, le_def, toRat_zero, not_le] at h
  exact ⟨h.1, h.2.1, h.2.2.1, h.2.2.2.1⟩

theorem equities_pos (hclean : first.portfolio.Clean)
    (hchain : (first :: rest).IsChain fun p q => p.Continues symbol q) :
    ∀ e ∈ equities (first :: rest), 0 < e.toRat := by
  intro e he
  obtain ⟨p, hp, rfl⟩ := mem_map.mp he
  refine hchain.induction (fun p => 0 < p.portfolio.equityQuote.toRat) _ ?_ ?_ p hp
  · intro p q hpq _
    unfold EquityPoint.Continues at hpq
    simp only [not_or, le_def, toRat_zero, not_le] at hpq
    exact hpq.2.2.1
  · exact fun _ => hclean.facts.2.1

namespace PortfolioLedger

/-- The snapshots that are taken of a ledger between its calls. -/
inductive Records (spec : BacktestSpec) : List Call → List EquityPoint → Prop where
  | start : Records spec [] []
  | call {calls : List Call} {points : List EquityPoint} (c : Call) (h : Records spec calls points) :
      Records spec (calls ++ [c]) points
  | sample {calls : List Call} {points : List EquityPoint} {mark : String} (point : EquityPoint)
      (h : Records spec calls points)
      (hsnapshot : (run Call.method calls (init spec)).snapshot mark = .ok point.portfolio) :
      Records spec calls (points ++ [point])

/-- A snapshot after some fills: their cash, the value of a sale and what the position cost. -/
structure Shows (spec : BacktestSpec) (fs : List CostedFill) (p : PortfolioSnapshot) : Prop where
  equity : ∃ sale, Fits 168 82 sale ∧ (p.assetQuantity.toRat = 0 → sale = 0) ∧
    p.equityQuote.toRat = spec.cashDecimal.toRat + (fs.map fun f => f.cashDelta.toRat).sum + sale
  realized : ∃ basis, Fits 168 82 basis ∧ (p.assetQuantity.toRat = 0 → basis = 0) ∧
    p.realizedPnlQuote.toRat = (fs.map fun f => f.cashDelta.toRat).sum + basis

variable {spec : BacktestSpec} {fs mid : List CostedFill} {calls : List Call} {p q : PortfolioSnapshot}

theorem sum_cashDelta (hpolicy : ∀ f ∈ fs, f.UsesPolicy spec) (hlen : fs.length ≤ exactFillLimit) :
    OnGrid 168 (fs.map fun f => f.cashDelta.toRat).sum ∧
      |(fs.map fun f => f.cashDelta.toRat).sum| ≤ 968 / 100 * 10 ^ 87 := by
  constructor
  · apply OnGrid.list_sum
    intro x hx
    obtain ⟨f, hf, rfl⟩ := mem_map.mp hx
    rw [(hpolicy f hf).toRat.1]
    exact (hpolicy f hf).onGrid.1
  · have hsum := abs_sum_le (l := fs.map fun f => f.cashDelta.toRat) (b := 121 / 100 * 10 ^ 80) (by
      intro x hx
      obtain ⟨f, hf, rfl⟩ := mem_map.mp hx
      rw [(hpolicy f hf).toRat.1]
      exact (hpolicy f hf).abs_le.1)
    rw [length_map] at hsum
    have hn : (fs.length : ℚ) ≤ 80000000 := by exact_mod_cast hlen
    calc _ ≤ (fs.length : ℚ) * (121 / 100 * 10 ^ 80) := hsum
      _ ≤ 80000000 * (121 / 100 * 10 ^ 80) := by gcongr
      _ = 968 / 100 * 10 ^ 87 := by norm_num

theorem valued_run (spec : BacktestSpec) (calls : List Call) :
    (run Call.method calls (init spec)).Valued := by
  refine (run_induction (I := fun fs s => Sound spec fs s ∧ s.Valued)
    ⟨sound_init spec, valued_init spec⟩ ?_ calls).2
  intro fs s f ⟨hs, _⟩ h
  exact ⟨hs.posted h, Valued.posted hs.same_spec h⟩

theorem snapshot_eq_ok {s : PortfolioLedger} {mark : String} (h : s.snapshot mark = .ok p) :
    ∃ price, Fits 40 40 price.toRat ∧ 0 ≤ price.toRat ∧ p.toFields = s.snapshotFields price := by
  unfold snapshot _mark at h
  simp only [bind_assoc, raiseIf_bind_eq_ok, not_not] at h
  obtain ⟨hpattern, hpos, h⟩ := h
  rw [le_def, toRat_zero, not_le] at hpos
  change PortfolioSnapshot.build _ = _ at h
  obtain ⟨_, rfl⟩ := construct_eq_ok.mp h
  refine ⟨ofText mark, ⟨onGrid_decimalPattern hpattern, ?_⟩, hpos.le, rfl⟩
  rw [abs_of_pos hpos]
  exact (decimalPattern_bounds hpattern).2.2.2

/-- What a snapshot of a run shows, as long as no sum of the ledger rounds. -/
theorem shows_of_snapshot {mark : String}
    (hlen : (acceptedFills calls (init spec)).length ≤ exactFillLimit)
    (h : (run Call.method calls (init spec)).snapshot mark = .ok p) :
    Shows spec (acceptedFills calls (init spec)) p := by
  have hs := sound_run spec calls
  have hb := balanced_run spec calls hlen
  have hcash := hb.cash
  have hrealized := hb.realized
  rw [map_entry] at hcash
  simp only [view, entry] at hcash hrealized
  obtain ⟨hgrid, hbound⟩ := sum_cashDelta hs.policy hlen
  obtain ⟨price, hprice, p0, hp⟩ := snapshot_eq_ok h
  obtain ⟨hsale, -⟩ := liquidation_fits hs.same_spec (valued_run spec calls) hs.asset_nonneg hprice p0
  set s := run Call.method calls (init spec)
  have hflat : s.assetQuantity.toRat = 0 → ¬ s.hasPosition := fun hzero => by
    rw [hasPosition, lt_def, toRat_zero, hzero]
    exact lt_irrefl 0
  have hasset : p.assetQuantity = s.assetQuantity := by rw [hp]; rfl
  have hequity : p.equityQuote = add decimalPrecision s.cash (s.liquidation price) := by rw [hp]; rfl
  have hresult : p.realizedPnlQuote = s.realizedPnlQuote := by rw [hp]; rfl
  constructor
  · refine ⟨(s.liquidation price).toRat, hsale, fun hzero => ?_, ?_⟩
    · rw [hasset] at hzero
      rw [liquidation, if_neg (hflat hzero), toRat_zero]
    · rw [hequity, toRat_add (by decide), hcash]
      obtain ⟨-, ⟨c0, c1, hc⟩, -⟩ := spec.facts
      rw [hcash]
      refine Fits.representable (f := 168) (b := 88) ⟨?_, ?_⟩ (by decide)
      · exact ((hc.mono (by norm_num)).add hgrid).add hsale.onGrid
      · calc |spec.cashDecimal.toRat + _ + (s.liquidation price).toRat|
            ≤ |spec.cashDecimal.toRat| + |_| + |(s.liquidation price).toRat| := abs_add_three _ _ _
          _ < 10 ^ 15 + 968 / 100 * 10 ^ 87 + 10 ^ 82 :=
              add_lt_add_of_le_of_lt (add_le_add (by rwa [abs_of_pos c0]) hbound) hsale.lt
          _ < 10 ^ 88 := by norm_num
  · refine ⟨s.costBasisQuote.toRat, ⟨hs.basis.1, hs.basis.2.trans_lt (by norm_num)⟩, fun hzero => ?_, ?_⟩
    · rw [hasset] at hzero
      exact hs.flat (hflat hzero)
    · rw [hresult]
      linarith

/-- No difference of two snapshots of a run rounds. -/
theorem Shows.representable (hp : Shows spec fs p) (hq : Shows spec (fs ++ mid) q)
    (hpolicy : ∀ f ∈ fs ++ mid, f.UsesPolicy spec) (hlen : (fs ++ mid).length ≤ exactFillLimit) :
    Representable decimalPrecision (p.equityQuote.toRat - q.equityQuote.toRat) ∧
      Representable decimalPrecision (q.realizedPnlQuote.toRat - p.realizedPnlQuote.toRat) := by
  have hmid : ∀ f ∈ mid, f.UsesPolicy spec := fun f hf => hpolicy f (mem_append_right _ hf)
  obtain ⟨hgrid, hbound⟩ := sum_cashDelta hmid (by rw [length_append] at hlen; omega)
  obtain ⟨sale, hsale, -, hpe⟩ := hp.equity
  obtain ⟨sale', hsale', -, hqe⟩ := hq.equity
  obtain ⟨basis, hbasis, -, hpr⟩ := hp.realized
  obtain ⟨basis', hbasis', -, hqr⟩ := hq.realized
  have hfits : ∀ {x y}, Fits 168 82 x → Fits 168 82 y →
      Fits 168 88 ((mid.map fun f => f.cashDelta.toRat).sum + x - y) := fun {x y} hx hy => by
    refine ⟨(hgrid.add hx.onGrid).sub hy.onGrid, ?_⟩
    rw [sub_eq_add_neg]
    calc _ ≤ |(mid.map fun f => f.cashDelta.toRat).sum| + |x| + |-y| := abs_add_three _ _ _
      _ < 968 / 100 * 10 ^ 87 + 10 ^ 82 + 10 ^ 82 := by
          rw [abs_neg]
          exact add_lt_add (add_lt_add_of_le_of_lt hbound hx.lt) hy.lt
      _ < 10 ^ 88 := by norm_num
  rw [map_append, sum_append] at hqe hqr
  constructor
  · have hrep : Representable decimalPrecision _ :=
      (hfits hsale' hsale).neg.representable (by decide : 168 + 88 ≤ decimalPrecision)
    convert hrep using 1
    rw [hpe, hqe]
    ring
  · have hrep : Representable decimalPrecision _ :=
      (hfits hbasis' hbasis).representable (by decide : 168 + 88 ≤ decimalPrecision)
    convert hrep using 1
    rw [hpr, hqr]
    ring

theorem acceptedFills_append (calls more : List Call) (s : PortfolioLedger) :
    acceptedFills (calls ++ more) s =
      acceptedFills calls s ++ acceptedFills more (run Call.method calls s) := by
  simp only [acceptedFills, accepted_append, flatMap_append]

/-- Two snapshots of a run, the second after some more fills. -/
def Ordered (spec : BacktestSpec) (fs : List CostedFill) (p q : EquityPoint) : Prop :=
  ∃ before mid after, fs = before ++ mid ++ after ∧ Shows spec before p.portfolio ∧
    Shows spec (before ++ mid) q.portfolio

theorem Ordered.more {p q : EquityPoint} (h : Ordered spec fs p q) (more : List CostedFill) :
    Ordered spec (fs ++ more) p q := by
  obtain ⟨before, mid, after, rfl, hp, hq⟩ := h
  exact ⟨before, mid, after ++ more, by rw [append_assoc], hp, hq⟩

/-- The snapshots come in the order of the fills; the first one is compared with itself. -/
theorem Records.ordered {points : List EquityPoint} (h : Records spec calls points)
    (hlen : (acceptedFills calls (init spec)).length ≤ exactFillLimit) :
    (∀ p ∈ points, Ordered spec (acceptedFills calls (init spec)) p p) ∧
      points.Pairwise (Ordered spec (acceptedFills calls (init spec))) := by
  induction h with
  | start => exact ⟨fun p hp => absurd hp not_mem_nil, Pairwise.nil⟩
  | @call calls points c _ ih =>
    rw [acceptedFills_append] at hlen ⊢
    generalize acceptedFills [c] (run Call.method calls (init spec)) = more at hlen ⊢
    rw [length_append] at hlen
    obtain ⟨hself, hpairs⟩ := ih ((Nat.le_add_right _ _).trans hlen)
    exact ⟨fun p hp => (hself p hp).more more, hpairs.imp fun hpq => hpq.more more⟩
  | @sample calls points mark point _ hsnapshot ih =>
    obtain ⟨hself, hpairs⟩ := ih hlen
    have hshows := shows_of_snapshot hlen hsnapshot
    constructor
    · intro p hp
      rw [mem_append, mem_singleton] at hp
      rcases hp with hp | rfl
      · exact hself p hp
      · exact ⟨acceptedFills calls (init spec), [], [], by simp, hshows, by simpa using hshows⟩
    · refine pairwise_append.mpr ⟨hpairs, by simp, fun p hp q hq => ?_⟩
      rw [mem_singleton.mp hq]
      obtain ⟨before, mid, after, hsplit, hp, -⟩ := hself p hp
      refine ⟨before, mid ++ after, [], by simpa using hsplit, hp, ?_⟩
      rw [← append_assoc, ← hsplit]
      exact hshows

end PortfolioLedger

theorem mem_falls_map
    (hself : ∀ p ∈ points, R p p) (hpairs : points.Pairwise R) {fall : Decimal × Decimal}
    (h : fall ∈ falls (equities points)) :
    ∃ p q, R p q ∧ fall = (p.portfolio.equityQuote, q.portfolio.equityQuote) := by
  obtain ⟨a, e⟩ := fall
  obtain ⟨before, after, hsplit, ha⟩ := h
  obtain ⟨ps, qs, rfl, hps, hqs⟩ := map_eq_append_iff.mp hsplit
  obtain ⟨q, qs, rfl, rfl, -⟩ := map_eq_cons_iff.mp hqs
  dsimp only at ha
  rw [mem_append, mem_singleton] at ha
  rcases ha with ha | rfl
  · rw [← hps] at ha
    obtain ⟨p, hp, rfl⟩ := mem_map.mp ha
    exact ⟨p, q, (pairwise_append.mp hpairs).2.2 p hp q (by simp), rfl⟩
  · exact ⟨q, q, hself q (by simp), rfl⟩

theorem related_getLastD (hself : R first first) (hpairs : (first :: rest).Pairwise R) :
    R first (rest.getLastD first) := by
  rcases eq_nil_or_concat rest with rfl | ⟨rest, last, rfl⟩
  · exact hself
  · rw [concat_eq_append, getLastD_concat]
    exact (pairwise_cons.mp hpairs).1 last (by simp)

/-- On a curve that a ledger records no difference rounds, and the trades add up to the gain. -/
theorem gains_of_records {spec : BacktestSpec} {calls : List PortfolioLedger.Call}
    (h : PortfolioLedger.Records spec calls (first :: rest))
    (hlen : (PortfolioLedger.acceptedFills calls (PortfolioLedger.init spec)).length ≤
      PortfolioLedger.exactFillLimit)
    (hclean : first.portfolio.Clean)
    (hchain : (first :: rest).IsChain fun p q => p.Continues symbol q)
    (hflat : (rest.getLastD first).portfolio.assetQuantity ≈ 0) :
    let final := (rest.getLastD first).portfolio
    ExactFalls (equities (first :: rest)) ∧
      ((tradePnls first rest).map toRat).sum =
        final.equityQuote.toRat - first.portfolio.equityQuote.toRat ∧
      (sub decimalPrecision final.equityQuote first.portfolio.equityQuote).toRat =
        final.equityQuote.toRat - first.portfolio.equityQuote.toRat := by
  intro final
  have hpolicy := (PortfolioLedger.sound_run spec calls).policy
  obtain ⟨hself, hpairs⟩ := h.ordered hlen
  have hexact : ∀ p q, PortfolioLedger.Ordered spec
      (PortfolioLedger.acceptedFills calls (PortfolioLedger.init spec)) p q →
      Representable decimalPrecision
          (p.portfolio.equityQuote.toRat - q.portfolio.equityQuote.toRat) ∧ ExactResult p q := by
    rintro p q ⟨before, mid, after, hsplit, hp, hq⟩
    rw [hsplit] at hpolicy hlen
    rw [length_append] at hlen
    exact hp.representable hq (fun f hf => hpolicy f (mem_append_left _ hf))
      ((Nat.le_add_right _ _).trans hlen)
  have hends := related_getLastD (hself first (by simp)) hpairs
  refine ⟨fun fall hfall => ?_, ?_, ?_⟩
  · obtain ⟨p, q, hpq, rfl⟩ := mem_falls_map hself hpairs hfall
    exact (hexact p q hpq).1
  · have hsum := sum_tradePnls (c := .init first.portfolio) hchain
      (hpairs.isChain.imp fun p q hpq => (hexact p q hpq).2) rfl
    obtain ⟨hasset, -, -, -⟩ := hclean.facts
    obtain ⟨before, mid, after, -, hfirst, hfinal⟩ := hends
    obtain ⟨sale, -, hsale, hfe⟩ := hfirst.equity
    obtain ⟨sale', -, hsale', hle⟩ := hfinal.equity
    obtain ⟨basis, -, hbasis, hfr⟩ := hfirst.realized
    obtain ⟨basis', -, hbasis', hlr⟩ := hfinal.realized
    rw [equiv_def, toRat_zero] at hflat
    rw [hsale hasset] at hfe
    rw [hbasis hasset] at hfr
    rw [hsale' hflat] at hle
    rw [hbasis' hflat] at hlr
    rw [tradePnls, hsum, hle, hfe, hlr, hfr]
    simp [CurveState.init]
  · apply toRat_sub decimalPrecision_pos
    obtain ⟨n, e, hn, hvalue⟩ := (hexact _ _ hends).1
    exact ⟨-n, e, by rwa [abs_neg], by push_cast; linarith⟩

/-- **Performance metrics.** The drawdown is the deepest fall from a running peak with the amount
of the first such fall, and the deepest of all falls unless a difference of equities rounds; the
wins, losses and breakeven trades are the trades. No difference rounds on a curve that a ledger
records, and its trades add up to what the equity gained. -/
theorem performance_metrics {points : List EquityPoint} {report : PerformanceReport}
    (h : calculateMetrics points = .ok report) :
    (∃ fall, Deepest (equities points) report.maximumDrawdownQuote report.maximumDrawdown fall) ∧
    ((report.winningTrades + report.losingTrades + report.breakevenTrades : ℕ) : ℤ) =
      report.tradeCount ∧
    ∀ spec calls, PortfolioLedger.Records spec calls points →
      (PortfolioLedger.acceptedFills calls (PortfolioLedger.init spec)).length ≤
        PortfolioLedger.exactFillLimit →
      ExactFalls (equities points) ∧
      ∃ first rest, points = first :: rest ∧
        ((tradePnls first rest).map toRat).sum =
          (rest.getLastD first).portfolio.equityQuote.toRat - first.portfolio.equityQuote.toRat ∧
        report.netPnlQuote.toRat = ((tradePnls first rest).map toRat).sum := by
  obtain ⟨values, hvalues, hfields⟩ := calculateMetrics_eq_ok.mp h
  obtain ⟨first, rest, rfl, hclean, hchain, hflat, rfl⟩ := _calculate_eq_ok.mp hvalues
  rw [hfields]
  refine ⟨exists_deepest (equities_pos hclean hchain), ?_, ?_⟩
  · have hlength := length_tradePnls (c := .init first.portfolio) hchain rfl
    have hfold : ∀ c : CurveState, (rest.map fun p => p.portfolio).foldl CurveState.next c =
        rest.foldl (fun c p => c.next p.portfolio) c := fun c => List.foldl_map
    rw [hclean.facts.2.2.1, sub_zero] at hlength
    unfold metricValues
    dsimp only
    rw [countP_signs, hfold, hlength, PaperSession.getLastD_map (fun p : EquityPoint => p.portfolio)]
    exact zero_add _
  · intro spec calls hrecords hlen
    obtain ⟨hexact, hsum, hnet⟩ := gains_of_records hrecords hlen hclean hchain hflat
    refine ⟨hexact, first, rest, rfl, hsum, ?_⟩
    rw [hsum, ← hnet]
    unfold metricValues
    dsimp only
    rw [PaperSession.getLastD_map (fun p : EquityPoint => p.portfolio)]

theorem exists_report {values : MetricValues Decimal}
    (h : _calculate points = .ok values) : ∃ report, calculateMetrics points = .ok report ∧
      report.toFields = ⟨values, points⟩ := by
  have hvalid : (⟨values, points⟩ : PerformanceReport.Fields).postInit = .ok () :=
    bind_eq_ok.mpr ⟨values, h, raiseIf_eq_ok.mpr (not_not.mpr rfl)⟩
  exact ⟨⟨⟨values, points⟩, hvalid⟩, calculateMetrics_eq_ok.mpr ⟨values, h, rfl⟩, rfl⟩

section RoundTrip
open PortfolioLedger

def roundTrip : List Call := [.applyMany [enterFill 0, exitFill 0]]

def pointBefore : EquityPoint where
  timeMs := 0
  portfolio := ⟨(init roundTripSpec).snapshotFields 1, by decide +kernel⟩
  valid := by decide

def pointAfter : EquityPoint where
  timeMs := 3600000
  portfolio := ⟨(run Call.method roundTrip (init roundTripSpec)).snapshotFields 1, by decide +kernel⟩
  valid := by decide

theorem records_roundTrip : Records roundTripSpec roundTrip [pointBefore, pointAfter] := by
  have hbefore : (run Call.method [] (init roundTripSpec)).snapshot "1" =
      .ok pointBefore.portfolio := by decide +kernel
  have hafter : (run Call.method roundTrip (init roundTripSpec)).snapshot "1" =
      .ok pointAfter.portfolio := by decide +kernel
  have hfirst : Records roundTripSpec [] ([] ++ [pointBefore]) := .sample pointBefore .start hbefore
  have hcall : Records roundTripSpec ([] ++ roundTrip) ([] ++ [pointBefore]) := .call _ hfirst
  exact .sample pointAfter hcall hafter

theorem performance_metrics_round_trip : ∃ report,
    calculateMetrics [pointBefore, pointAfter] = .ok report ∧ report.tradeCount = 1 ∧
      (∃ fall, Deepest (equities [pointBefore, pointAfter]) report.maximumDrawdownQuote
        report.maximumDrawdown fall) ∧
      ExactFalls (equities [pointBefore, pointAfter]) := by
  have hcalculate : ∃ values, _calculate [pointBefore, pointAfter] = .ok values ∧
      values.tradeCount = 1 :=
    ⟨_, _calculate_eq_ok.mpr ⟨pointBefore, [pointAfter], rfl, by decide +kernel, by decide +kernel,
      by decide +kernel, rfl⟩, by decide +kernel⟩
  obtain ⟨values, hvalues, hcount⟩ := hcalculate
  obtain ⟨report, hreport, hfields⟩ := exists_report hvalues
  obtain ⟨hdeepest, -, hledger⟩ := performance_metrics hreport
  have hfew : (acceptedFills roundTrip (init roundTripSpec)).length ≤ exactFillLimit := by
    decide +kernel
  refine ⟨report, hreport, ?_, hdeepest, (hledger _ _ records_roundTrip hfew).1⟩
  rw [hfields]
  exact hcount

end RoundTrip

/-! ### A fall that rounding hides

The second equity is the peak. Its fall to the third one has 257 digits, and is rounded
by almost half of the last one that stays.
-/

def flatPoint (timeMs : ℤ) (equity : Decimal)
    (h : (⟨⟨equity, 0, 0, 0, 0, 0, equity, 0, 0⟩, .btcusdt, 0⟩ : PortfolioSnapshot.Fields).postInit =
      .ok ()) (htime : (⟨timeMs, ⟨_, h⟩⟩ : EquityPoint.Fields).postInit = .ok ()) : EquityPoint :=
  ⟨⟨timeMs, ⟨_, h⟩⟩, htime⟩

def startEquity : Decimal := 1
def peakEquity : Decimal := ⟨false, 10 ^ 255 + 1, -255⟩
def lowEquity : Decimal := ⟨false, 6, -256⟩

def finePoints : List EquityPoint :=
  [flatPoint 0 startEquity (by decide +kernel) (by decide),
    flatPoint 1 peakEquity (by decide +kernel) (by decide),
    flatPoint 2 lowEquity (by decide +kernel) (by decide)]

/-- The first equity falls deeper, also without any rounding, than the report says. -/
theorem deeper_than_reported : ∃ report, calculateMetrics finePoints = .ok report ∧
    (startEquity, lowEquity) ∈ falls (equities finePoints) ∧
    report.maximumDrawdown.toRat < depth (startEquity, lowEquity) ∧
    depth (startEquity, lowEquity) = (startEquity.toRat - lowEquity.toRat) / startEquity.toRat := by
  have hcalculate : ∃ values, _calculate finePoints = .ok values ∧
      values.maximumDrawdown < drawdown (startEquity, lowEquity) :=
    ⟨_, _calculate_eq_ok.mpr ⟨_, _, rfl, by decide +kernel, by decide +kernel,
      by decide +kernel, rfl⟩, by decide +kernel⟩
  obtain ⟨values, hvalues, hless⟩ := hcalculate
  obtain ⟨report, hreport, hfields⟩ := exists_report hvalues
  refine ⟨report, hreport, ⟨[startEquity, peakEquity], [], rfl, by simp⟩, ?_, ?_⟩
  · rw [hfields]
    exact hless
  · have hrep : Representable decimalPrecision (startEquity.toRat - lowEquity.toRat) := by
      refine ⟨10 ^ 256 - 6, -256, by rw [decimalPrecision]; norm_num, ?_⟩
      rw [startEquity, lowEquity, toRat_one, toRat_mk, if_neg Bool.false_ne_true]
      norm_num
    have hone : startEquity.toRat = 1 := toRat_one
    have hsub : (drawdownQuote (startEquity, lowEquity)).toRat =
        startEquity.toRat - lowEquity.toRat := toRat_sub decimalPrecision_pos hrep
    rw [depth, drawdown, toRat_quotient decimalPrecision_pos (by decide) (by rwa [hsub, hone, div_one, ← hone]),
      hsub]

end TradingLab
