import TradingLab.Backtest.Reconcile

/-!
# A running session can be valued

At every price of a candle the ledger of a run has a snapshot: its amounts have
the signs the constructor demands, and their sums fit the digits of the context.
-/

namespace TradingLab

open Decimal

theorem exactFill_signs (r : FillReference) {fee slip : ℚ} (f0 : 0 ≤ fee) (s0 : 0 ≤ slip)
    (s1 : slip ≤ 1000) : (r.action = .enterLong → (exactFill r fee slip).cashDelta ≤ 0) ∧
      0 ≤ (exactFill r fee slip).feeQuote ∧ 0 ≤ (exactFill r fee slip).slippageQuote := by
  obtain ⟨-, ⟨-, q0⟩, -, p0⟩ := r.facts
  have hprice := (slippedPrice_bounds r.action p0.le (by positivity : 0 ≤ slip / 10000)
    (by linarith)).1
  have hgross := mul_nonneg q0.le hprice
  have hfee := mul_nonneg hgross (by positivity : 0 ≤ fee / 10000)
  unfold exactFill
  dsimp only
  refine ⟨?_, hfee, mul_nonneg q0.le (abs_nonneg _)⟩
  intro henter
  rw [if_pos henter]
  linarith

namespace PortfolioLedger
variable {spec : BacktestSpec} {fs : List CostedFill} {s s' : PortfolioLedger} {f : CostedFill}

/-- What a position is, beyond what the ledger checks of it. -/
structure Valued (s : PortfolioLedger) : Prop where
  basis : 0 ≤ s.costBasisQuote.toRat
  asset : Fits 40 40 s.assetQuantity.toRat

theorem fits_zero (f b : ℕ) : Fits f b 0 := ⟨onGrid_zero f, by simp⟩

theorem valued_init (spec : BacktestSpec) : (init spec).Valued := by
  constructor
  · simp [init]
  · simpa [init] using fits_zero 40 40

theorem Valued.posted (hspec : s.spec = spec) (h : s.Accepts f) : (s.posted f).Valued := by
  have hpolicy := h.policy
  rw [hspec] at hpolicy
  obtain ⟨cash, -, -, asset⟩ := hpolicy.toRat
  obtain ⟨⟨-, f0, -⟩, -, s0, s1⟩ := hpolicy.rates
  by_cases henter : f.reference.action = .enterLong
  · rw [posted_enter henter]
    constructor
    · rw [toRat_copyNegate, cash]
      have := (exactFill_signs f.reference f0 s0 s1).1 henter
      unfold CostedFill.exact
      linarith
    · rw [asset, CostedFill.exact, exactFill]
      dsimp only
      rw [if_pos henter]
      exact (fits_reference f.reference).1
  · rw [posted_exit henter]
    constructor
    · simp
    · simpa using fits_zero 40 40

/-- What a sale brings is exact, and nothing is lost on it. -/
theorem liquidation_fits (hspec : s.spec = spec) (h : s.Valued) (hq : 0 ≤ s.assetQuantity.toRat)
    {price : Decimal} (hp : Fits 40 40 price.toRat) (p0 : 0 ≤ price.toRat) :
    Fits 168 82 (s.liquidation price).toRat ∧ 0 ≤ (s.liquidation price).toRat := by
  obtain ⟨-, -, ⟨f0, f1, hf⟩, s0, s1, hs⟩ := spec.facts
  unfold liquidation
  split
  · have hslip : Holds 44 1 (sub decimalPrecision 1 (quotient decimalPrecision
        s.spec.slippageBpsDecimal basisPoints)) (1 - spec.slippageBpsDecimal.toRat / 10000) := by
      rw [hspec, sub_eq_add_neg]
      refine ⟨?_, fits_one_add (fits_rate hs s0 s1).neg⟩
      rw [← sub_eq_add_neg]
      exact (toRat_factors hs s0 s1).2
    have hfee : Holds 44 1 (sub decimalPrecision 1 (quotient decimalPrecision
        s.spec.feeBpsDecimal basisPoints)) (1 - spec.feeBpsDecimal.toRat / 10000) := by
      rw [hspec, sub_eq_add_neg]
      refine ⟨?_, fits_one_add (fits_rate hf f0 f1).neg⟩
      rw [← sub_eq_add_neg]
      exact (toRat_factors hf f0 f1).2
    have hprec : 0 < decimalPrecision := by decide
    have hslipped := Holds.mul hprec ⟨rfl, hp⟩ hslip (by decide)
    have hgross := Holds.mul hprec ⟨rfl, h.asset⟩ hslipped (by decide)
    have hnet := Holds.mul hprec hgross hfee (by decide)
    dsimp only
    rw [hnet.value]
    refine ⟨hnet.fits, ?_⟩
    apply mul_nonneg
    · apply mul_nonneg hq
      apply mul_nonneg p0
      linarith
    · linarith
  · rw [toRat_zero]
    exact ⟨fits_zero 168 82, le_refl 0⟩

end PortfolioLedger

namespace PaperSession

open PortfolioLedger

variable {spec : BacktestSpec} {p p' : PaperSession} {fs fills : List CostedFill}
  {c : PaperFillEngine.Call}

theorem valued_accept (h : Running spec fs p) (hv : p.ledger.Valued)
    (ha : p.accept c = .ok (fills, p')) : p'.ledger.Valued := by
  obtain ⟨-, -, -, hall⟩ := accept_eq_ok h.sound ha
  have hkept := @applyAll_induction _ _ (fun _ s => s.spec = spec ∧ s.Valued)
    (fun _ _ _ hs hf => ⟨hs.1, Valued.posted hs.1 hf⟩) fills []
    ⟨h.sound.ledger.sound.same_spec, hv⟩ hall
  exact hkept.2

theorem length_accept (h : Running spec fs p) (ha : p.accept c = .ok (fills, p')) :
    fills.length ≤ 2 := by
  have hlength := (accept_eq_ok h.sound ha).1.length_le.1
  rwa [List.length_map] at hlength

/-- The cash of a run and its costs, which its fills add up to. -/
theorem Running.totals (h : Running spec fs p) (hlen : fs.length ≤ rangeFillLimit) :
    Fits 168 87 p.ledger.cash.toRat ∧ 0 ≤ p.ledger.totalFeeQuote.toRat ∧
      0 ≤ p.ledger.totalSlippageQuote.toRat := by
  have hexact := h.exact (hlen.trans (by decide))
  have hpolicy := hexact.sound.policy
  have hcash := hexact.balanced.cash
  have hfees := hexact.balanced.fees
  have hslips := hexact.balanced.slippage
  rw [map_entry] at hcash hfees hslips
  have hsigns : ∀ f ∈ fs, 0 ≤ f.feeQuote.toRat ∧ 0 ≤ f.slippageQuote.toRat := by
    intro f hf
    obtain ⟨-, fee, slip, -⟩ := (hpolicy f hf).toRat
    obtain ⟨⟨-, f0, -⟩, -, s0, s1⟩ := (hpolicy f hf).rates
    rw [fee, slip]
    exact (exactFill_signs f.reference f0 s0 s1).2
  refine ⟨?_, ?_, ?_⟩
  · have hsum := @sum_fits_range fs (fun f => f.cashDelta.toRat) hlen
      (fun f hf => by rw [(hpolicy f hf).toRat.1]; exact (hpolicy f hf).onGrid.1)
      (fun f hf => by rw [(hpolicy f hf).toRat.1]; exact (hpolicy f hf).abs_le.1)
    obtain ⟨-, ⟨c0, c1, hc⟩, -⟩ := spec.facts
    have hinitial : Fits 168 86 spec.cashDecimal.toRat := by
      refine ⟨hc.mono (by norm_num), ?_⟩
      rw [abs_of_pos c0]
      exact c1.trans_lt (by norm_num)
    change p.ledger.cash.toRat = _ at hcash
    rw [hcash]
    exact hinitial.add hsum
  · change p.ledger.totalFeeQuote.toRat = _ at hfees
    rw [hfees]
    apply List.sum_nonneg
    simp only [List.forall_mem_map]
    exact fun f hf => (hsigns f hf).1
  · change p.ledger.totalSlippageQuote.toRat = _ at hslips
    rw [hslips]
    apply List.sum_nonneg
    simp only [List.forall_mem_map]
    exact fun f hf => (hsigns f hf).2

theorem Running.postInit (h : Running spec fs p) (hv : p.ledger.Valued)
    (hlen : fs.length ≤ rangeFillLimit) {price : Decimal} (hp : Fits 40 40 price.toRat)
    (p0 : 0 ≤ price.toRat) : (p.ledger.snapshotFields price).postInit = .ok () := by
  have hprec : 0 < decimalPrecision := by decide
  have hsound := h.sound.ledger.sound
  obtain ⟨hcash, hfee, hslip⟩ := h.totals hlen
  obtain ⟨hsale, l0⟩ := liquidation_fits hsound.same_spec hv hsound.asset_nonneg hp p0
  have hwide := hsale.mono (le_refl 168) (by norm_num : 82 ≤ 87)
  have hbasis : Fits 168 87 p.ledger.costBasisQuote.toRat :=
    ⟨hsound.basis.1, hsound.basis.2.trans_lt (by norm_num)⟩
  have hequity := hcash.add hwide
  have hresult := hwide.sub hbasis
  obtain ⟨equity, hadd, hequityValue⟩ :=
    Numeral.add_of_fits hprec hequity (by decide) (by decide)
  obtain ⟨result, hsub, hresultValue⟩ :=
    Numeral.sub_of_fits hprec hresult (by decide) (by decide)
  have hequity' : (p.ledger.snapshotFields price).equityQuote.toRat = equity.toRat :=
    (toRat_add hprec (hequity.representable (by decide))).trans hequityValue.symm
  have hresult' : (p.ledger.snapshotFields price).unrealizedPnlQuote.toRat = result.toRat :=
    (toRat_sub hprec (hresult.representable (by decide))).trans hresultValue.symm
  have hagree : ((p.ledger.snapshotFields price).toAmounts.map Numeral.finite).sumsAgree =
      .ok true := by
    unfold Amounts.sumsAgree Amounts.map
    dsimp only
    change (do
      let equity ← Numeral.add decimalPrecision (.finite p.ledger.cash)
        (.finite (p.ledger.liquidation price))
      _) = _
    rw [hadd, ok_bind]
    change (do
      let unrealized ← Numeral.sub decimalPrecision (.finite (p.ledger.liquidation price))
        (.finite p.ledger.costBasisQuote)
      _) = _
    rw [hsub, ok_bind]
    change Except.ok (decide (_ ≈ equity) && decide (_ ≈ result)) = _
    rw [decide_eq_true (equiv_def.mpr hequity'), decide_eq_true (equiv_def.mpr hresult')]
    rfl
  unfold PortfolioSnapshot.Fields.postInit
  rw [hagree]
  change raiseIf _ _ = _
  rw [raiseIf_eq_ok]
  have hordinary : (p.ledger.snapshotFields price).toAmounts.Ordinary := by
    unfold Amounts.Ordinary
    simp only [lt_def, equiv_def, toRat_zero, not_or, not_lt, not_and, not_not]
    refine ⟨hsound.cash_nonneg, hsound.asset_nonneg, hv.basis, l0, hfee, hslip, ?_⟩
    intro hzero
    have hflat : ¬ p.ledger.hasPosition := by
      intro hheld
      rw [hasPosition, lt_def, toRat_zero] at hheld
      exact hheld.ne' hzero
    refine ⟨hsound.flat hflat, ?_⟩
    change (p.ledger.liquidation price).toRat = 0
    rw [liquidation, if_neg hflat, toRat_zero]
  have hclosed : ¬ (p.ledger.snapshotFields price).closedTrades < 0 := not_lt.mpr (Int.natCast_nonneg _)
  simp [hordinary, hclosed]

theorem Running.snapshot (h : Running spec fs p) (hv : p.ledger.Valued)
    (hlen : fs.length ≤ rangeFillLimit) {mark : String} (hmark : decimalPattern mark)
    (hpos : 0 < (ofText mark).toRat) : ∃ portfolio, p.ledger.snapshot mark = .ok portfolio := by
  have hprice : Fits 40 40 (ofText mark).toRat := by
    refine ⟨onGrid_decimalPattern hmark, ?_⟩
    rw [abs_of_pos hpos]
    exact (decimalPattern_bounds hmark).2.2.2
  have hvalid := h.postInit hv hlen hprice hpos.le
  refine ⟨⟨_, hvalid⟩, ?_⟩
  unfold PortfolioLedger.snapshot _mark
  rw [raiseIf_neg (not_not.mpr hmark), ok_bind]
  dsimp only
  rw [raiseIf_neg, ok_bind]
  · exact construct_of_ok hvalid
  · rw [le_def, toRat_zero, not_le]
    exact hpos

end PaperSession

end TradingLab
