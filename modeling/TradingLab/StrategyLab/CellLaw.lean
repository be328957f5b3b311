import TradingLab.StrategyLab.Labs
import TradingLab.Validation.RiskTrackerRun

/-!
# The account of the trades

The account of a cell follows its ledger fill by fill: an open trade is the open
position, and the results it has collected add up, in the context of the ledger, to
what the ledger realized. The row of the cell adds them up in a smaller context, so
that the two agree as long as no partial sum outgrows it.
-/

namespace TradingLab

open Decimal Method List

namespace PortfolioLedger
variable {s : PortfolioLedger} {f : CostedFill}

theorem Accepts.opens (h : s.Accepts f) (ha : f.reference.action = .enterLong) :
    (s.posted f).hasPosition := by
  obtain ⟨-, -, -, hasset⟩ := h.policy.toRat
  have hpos := f.reference.facts.2.1.2
  rw [posted_enter ha, hasPosition, lt_def, toRat_zero]
  change 0 < f.assetDelta.toRat
  rw [hasset, CostedFill.exact, exactFill]
  simpa only [ha, if_true] using hpos

end PortfolioLedger

namespace StrategyLab

/-- The account of the trades follows the ledger. -/
structure Accounts (t : Trades) (ledger : PortfolioLedger) : Prop where
  opened : ∀ d ∈ t.openTradeCashDelta, ledger.hasPosition ∧ ledger.costBasisQuote = copyNegate d
  flat : t.openTradeCashDelta = none → ¬ ledger.hasPosition
  realized : ledger.realizedPnlQuote.toRat = (sum decimalPrecision t.tradePnls).toRat

theorem accounts_init (spec : BacktestSpec) : Accounts {} (PortfolioLedger.init spec) where
  opened := nofun
  flat := fun _ => by simp [PortfolioLedger.init, PortfolioLedger.hasPosition, lt_def]
  realized := rfl

theorem toRat_gain (realized opened closed : Decimal) :
    (add decimalPrecision realized (sub decimalPrecision closed (copyNegate opened))).toRat =
      (add decimalPrecision realized (add decimalPrecision opened closed)).toRat := by
  have hp : 0 < decimalPrecision := by decide
  have hsame : (sub decimalPrecision closed (copyNegate opened)).toRat =
      (add decimalPrecision opened closed).toRat := by
    apply toRat_round_congr hp
    rw [toRat_addExact, toRat_addExact, toRat_copyNegate, toRat_copyNegate]
    ring
  apply toRat_round_congr hp
  rw [toRat_addExact, toRat_addExact, hsame]

section Lab
variable {σ : Type} (lab : Lab σ) (counts : Counts) {t : Trades} {ledger ledger' : PortfolioLedger}

/-- A fill that the ledger accepts is entered into the account. -/
theorem Accounts.posted {fill : CostedFill} (h : Accounts t ledger)
    (haccepts : ledger.Accepts fill) :
    ∃ t' counts', lab.account (t, counts) fill = .ok (t', counts') ∧
      Accounts t' (ledger.posted fill) := by
  unfold Lab.account
  by_cases ha : fill.reference.action = .enterLong
  · have hnone : t.openTradeCashDelta = none := by
      cases hopen : t.openTradeCashDelta with
      | none => rfl
      | some d => exact absurd (h.opened d hopen).1 (haccepts.enter ha)
    rw [if_pos ha, raiseIf_neg (by simp [hnone])]
    refine ⟨_, _, rfl, ?_⟩
    constructor
    case opened =>
      rintro d ⟨⟩
      refine ⟨haccepts.opens ha, ?_⟩
      rw [PortfolioLedger.posted_enter ha]
    case flat => exact nofun
    case realized =>
      rw [PortfolioLedger.posted_enter ha]
      exact h.realized
  · obtain ⟨hheld, -⟩ := haccepts.exit ha
    cases hopen : t.openTradeCashDelta with
    | none => exact absurd hheld (h.flat hopen)
    | some d =>
      obtain ⟨-, hbasis⟩ := h.opened d hopen
      rw [if_neg ha]
      refine ⟨_, _, rfl, ?_⟩
      rw [PortfolioLedger.posted_exit ha]
      constructor
      case opened => exact nofun
      case flat => exact fun _ => by simp [PortfolioLedger.hasPosition, lt_def]
      case realized =>
        dsimp only
        rw [hbasis, toRat_gain, sum_append_singleton]
        apply toRat_round_congr (by decide)
        rw [toRat_addExact, toRat_addExact, h.realized]

theorem Accounts.booked {fills : List CostedFill} (h : Accounts t ledger)
    (hbooked : (PortfolioLedger._applyAll fills).call ledger = (.ok (), ledger')) :
    ∃ t' counts', fills.foldlM lab.account (t, counts) = .ok (t', counts') ∧
      Accounts t' ledger' := by
  have hstart : ∃ t' counts', [].foldlM lab.account (t, counts) = .ok (t', counts') ∧
      Accounts t' ledger := ⟨t, counts, rfl, h⟩
  refine PortfolioLedger.applyAll_induction (I := fun fs s => ∃ t' counts',
    fs.foldlM lab.account (t, counts) = .ok (t', counts') ∧ Accounts t' s) ?_ hstart hbooked
  intro fs s f hkept haccepts
  obtain ⟨t', counts', hfold, haccounts⟩ := hkept
  obtain ⟨t'', counts'', hfill, hnext⟩ := haccounts.posted lab counts' haccepts
  refine ⟨t'', counts'', ?_, hnext⟩
  rw [foldlM_append, hfold, ok_bind, foldlM_cons, hfill]
  rfl

variable {lab} {s s' : CellState σ} {dataset : AcceptedBacktestDataset} {event : Crisis.CrisisEvent}
  {events : List Crisis.CrisisEvent} {candle : Candle} {decided : Decided σ}

theorem Accounts.settle (h : Accounts s.trades s.session.ledger)
    (hs : lab.settle s event candle decided = .ok s') :
    Accounts s'.trades s'.session.ledger := by
  unfold Lab.settle at hs
  obtain ⟨⟨fills, p⟩, haccept, hs⟩ := bind_eq_ok.mp hs
  obtain ⟨-, -, -, hbooked⟩ := PaperSession.acceptAt_cases (mapError_eq_ok.mp haccept)
  obtain ⟨t, counts, hfold, hnext⟩ := h.booked lab decided.counts hbooked
  rw [hfold, ok_bind] at hs
  obtain ⟨active, -, hs⟩ := bind_eq_ok.mp hs
  obtain ⟨snapshot, -, hs⟩ := bind_eq_ok.mp hs
  cases hs
  exact hnext

theorem Accounts.step (h : Accounts s.trades s.session.ledger)
    (hs : lab.step dataset s event = .ok s') : Accounts s'.trades s'.session.ledger := by
  unfold Lab.step at hs
  obtain ⟨filled, -, hs⟩ := bind_eq_ok.mp hs
  cases filled with
  | none =>
    cases hs
    cases lab.countsMissing <;> exact h
  | some candle =>
    obtain ⟨decided, -, hs⟩ := bind_eq_ok.mp hs
    exact settle (s := s.counted) h hs

theorem Accounts.steps (h : Accounts s.trades s.session.ledger)
    (hs : lab.steps dataset events s = .ok s') : Accounts s'.trades s'.session.ledger := by
  unfold Lab.steps at hs
  induction events generalizing s with
  | nil =>
    cases hs
    exact h
  | cons event events ih =>
    rw [foldlM_cons] at hs
    obtain ⟨t, ht, hs⟩ := bind_eq_ok.mp hs
    exact ih (h.step ht) hs

end Lab

/-- A cell came to the end of its fold, and every step of it succeeded. -/
def Ran (c : Cell) (corpus : AdmittedControlCorpus) (symbol : Symbol) (start stop : ℤ)
    (s : CellState c.Own) : Prop :=
  ∃ dataset analysis, _dataset corpus symbol start stop = .ok dataset ∧
    c.lab.run dataset = .ok (analysis, s)

theorem Ran.accounts {c : Cell} {corpus : AdmittedControlCorpus} {symbol : Symbol} {start stop : ℤ}
    {s : CellState c.Own} (h : Ran c corpus symbol start stop s) :
    Accounts s.trades s.session.ledger := by
  obtain ⟨dataset, analysis, -, hrun⟩ := h
  unfold Lab.run at hrun
  obtain ⟨opened, -, hrun⟩ := bind_eq_ok.mp hrun
  obtain ⟨own, -, hrun⟩ := bind_eq_ok.mp hrun
  obtain ⟨t, hsteps, hrun⟩ := bind_eq_ok.mp hrun
  cases hrun
  exact (accounts_init dataset.spec).steps (s := .init dataset.spec own) hsteps

/-- After every closed trade the results so far, their gains and their losses have totals with the
digits of the default context. -/
def Short (t : Trades) : Prop :=
  ∀ earlier, earlier <+: t.tradePnls →
    ∀ ds ∈ [earlier, earlier.filter fun d => 0 < d, earlier.filter fun d => d < 0],
      Representable defaultPrecision (ds.map toRat).sum

/-- The row of a cell adds up to what its ledger realized. -/
structure Reconciled {σ : Type} (lab : Lab σ) (s : CellState σ) : Prop where
  realized : s.trades.realized ≈ s.session.ledger.realizedPnlQuote
  gross : s.trades.grossProfit.toRat - s.trades.grossLoss.toRat =
    s.session.ledger.realizedPnlQuote.toRat
  raises : ∀ analysis last, lab.finish s analysis last ≠
    .error (lab.failed "closed-trade accounting disagrees with ledger")

section Short
variable {t : Trades}

theorem Short.realized (h : Short t) : t.realized.toRat = (t.tradePnls.map toRat).sum := by
  apply toRat_sum_of_partial (by decide)
  intro initial hinitial
  exact h initial hinitial initial (by simp)

theorem Short.grossProfit (h : Short t) : t.grossProfit.toRat = (t.wins.map toRat).sum := by
  apply toRat_sum_of_partial (by decide)
  intro initial hinitial
  obtain ⟨earlier, hearlier, rfl⟩ := prefix_filter_iff.mp hinitial
  exact h earlier hearlier _ (by simp)

theorem Short.grossLoss (h : Short t) : t.grossLoss.toRat = -(t.losses.map toRat).sum := by
  have hsum : (sum defaultPrecision t.losses).toRat = (t.losses.map toRat).sum := by
    apply toRat_sum_of_partial (by decide)
    intro initial hinitial
    obtain ⟨earlier, hearlier, rfl⟩ := prefix_filter_iff.mp hinitial
    exact h earlier hearlier _ (by simp)
  rw [Trades.grossLoss, toRat_neg (by decide), hsum]
  rw [hsum]
  exact h t.tradePnls (prefix_refl _) _ (by simp [Trades.losses])

theorem Short.ledger (h : Short t) :
    (sum decimalPrecision t.tradePnls).toRat = (t.tradePnls.map toRat).sum := by
  apply toRat_sum_of_partial (by decide)
  intro initial hinitial
  exact (h initial hinitial initial (by simp)).mono (by decide)

end Short

theorem benchmark_ne (c : Cell) (analysis : List Candle) : c.lab.benchmark analysis ≠
    .error (c.lab.failed "closed-trade accounting disagrees with ledger") := by
  intro h
  cases c with
  | walkForward => cases h
  | riskOverlay => cases h
  | ablation => cases h
  | momentum =>
    change (do
      let buyHold ← Momentum._buyHoldReturn analysis
      _) = _ at h
    cases hbuy : Momentum._buyHoldReturn analysis with
    | ok buyHold =>
      rw [hbuy] at h
      cases h
    | error e =>
      rw [hbuy] at h
      have hraised : e = CellError.lab "HSL-004A closed-trade accounting disagrees with ledger" :=
        Except.error.inj h
      rw [hraised] at hbuy
      unfold Momentum._buyHoldReturn at hbuy
      split at hbuy
      · dsimp only at hbuy
        unfold raiseIf at hbuy
        split at hbuy <;> simp at hbuy
      · simp at hbuy

theorem Accounts.reconciled {σ : Type} {lab : Lab σ} {s : CellState σ}
    (h : Accounts s.trades s.session.ledger) (hshort : Short s.trades)
    (hbenchmark : ∀ analysis, lab.benchmark analysis ≠
      .error (lab.failed "closed-trade accounting disagrees with ledger")) : Reconciled lab s := by
  have hledger : s.session.ledger.realizedPnlQuote.toRat = (s.trades.tradePnls.map toRat).sum := by
    rw [h.realized, hshort.ledger]
  have hrealized : s.trades.realized ≈ s.session.ledger.realizedPnlQuote := by
    rw [equiv_def, hshort.realized, hledger]
  constructor
  case realized => exact hrealized
  case gross =>
    rw [hshort.grossProfit, hshort.grossLoss, hledger, sub_neg_eq_add]
    exact sum_gains_losses s.trades.tradePnls
  case raises =>
    intro analysis last hfinish
    unfold Lab.finish at hfinish
    cases hfinal : s.session.ledger.snapshot last.close with
    | error e =>
      rw [hfinal] at hfinish
      cases hfinish
    | ok final =>
      have hreconciles : Reconciles s.trades final := by
        unfold PortfolioLedger.snapshot at hfinal
        obtain ⟨price, -, hbuild⟩ := bind_eq_ok.mp hfinal
        obtain ⟨_, rfl⟩ := construct_eq_ok.mp hbuild
        exact hrealized
      rw [hfinal] at hfinish
      change (do
        raiseIf (¬ Reconciles s.trades final) _
        _) = _ at hfinish
      rw [raiseIf_neg (not_not.mpr hreconciles), ok_bind] at hfinish
      cases hbuy : lab.benchmark analysis with
      | error e =>
        rw [hbuy] at hfinish
        cases hfinish
        exact hbenchmark analysis hbuy
      | ok buyHold =>
        rw [hbuy] at hfinish
        cases hfinish

/-- A cell whose trades keep to the default context adds up to its ledger. -/
theorem cell_reconciles (c : Cell) (corpus : AdmittedControlCorpus) (symbol : Symbol)
    (start stop : ℤ) (s : CellState c.Own) (hran : Ran c corpus symbol start stop s)
    (hshort : Short s.trades) : Reconciled c.lab s :=
  hran.accounts.reconciled hshort (benchmark_ne c)

section Sample
open PaperRunner (sampleRise sampleDrop sampleCandles sampleEnd firstDecisionTimeMs)

/-- The end of the sample of the forward runner, with some candles of the primary interval. -/
def sampleCorpus (primary : List Candle) : AdmittedControlCorpus where
  datasets
    | .btcusdt, .h1 => primary
    | .btcusdt, .m15 => (sampleCandles .m15).drop 800
    | .btcusdt, .h4 => sampleCandles .h4
    | .ethusdt, _ => []
  retrievedAtMs := sampleEnd

/-- The run of the trend candidate over the first hour of a sample. -/
def sampleRun (primary : List Candle) : Except CellError (AcceptedBacktestDataset × List Candle ×
    CellState (Cell.walkForward .trendPullback).Own) := do
  let dataset ← _dataset (sampleCorpus primary) .btcusdt firstDecisionTimeMs
    (firstDecisionTimeMs + 3600000)
  let ran ← (walkForward .trendPullback).run dataset
  return (dataset, ran)

theorem ran_sample {primary : List Candle} {ds : List Decimal}
    (h : (sampleRun primary).toOption.map (fun r => r.2.2.trades.tradePnls) = some ds) :
    ∃ s, Ran (.walkForward .trendPullback) (sampleCorpus primary) .btcusdt firstDecisionTimeMs
      (firstDecisionTimeMs + 3600000) s ∧ s.trades.tradePnls = ds := by
  cases hrun : sampleRun primary with
  | error e =>
    rw [hrun] at h
    cases h
  | ok r =>
    obtain ⟨dataset, analysis, s⟩ := r
    rw [hrun] at h
    unfold sampleRun at hrun
    obtain ⟨d, hdataset, hrun⟩ := bind_eq_ok.mp hrun
    obtain ⟨ran, hran, hrun⟩ := bind_eq_ok.mp hrun
    cases hrun
    exact ⟨s, ⟨dataset, analysis, hdataset, hran⟩, Option.some.inj h⟩

/-- An hour whose range makes the stop a short number. -/
def broadCandles : List Candle :=
  (ForwardMarket.steadyCandles .btcusdt .h1 203).drop 180 ++
    [⟨{ sampleRise .h1 with high := "114" }, by decide⟩, sampleDrop]

set_option maxRecDepth 100000 in
theorem broad_sample : (sampleRun broadCandles).toOption.map (fun r => r.2.2.trades.tradePnls) =
    some [⟨true, 1551125625, -12⟩] := by
  decide +kernel

theorem short_of_digits {t : Trades} {d : Decimal} (h : t.tradePnls = [d])
    (hd : d.coefficient < 10 ^ defaultPrecision) : Short t := by
  have hempty : Representable defaultPrecision (([] : List Decimal).map toRat).sum :=
    ⟨0, 0, by norm_num, by norm_num⟩
  have hone : Representable defaultPrecision ([d].map toRat).sum := by
    refine ⟨d.int, d.exponent, ?_, by simp [toRat]⟩
    rw [Int.abs_eq_natAbs, natAbs_int]
    exact_mod_cast hd
  intro earlier hearlier ds hds
  have hsub : ds.Sublist [d] := by
    rw [h] at hearlier
    simp only [mem_cons, not_mem_nil, or_false] at hds
    rcases hds with rfl | rfl | rfl
    · exact hearlier.sublist
    · exact filter_sublist.trans hearlier.sublist
    · exact filter_sublist.trans hearlier.sublist
  rcases sublist_singleton.mp hsub with rfl | rfl
  · exact hempty
  · exact hone

theorem cell_reconciles_sample : ∃ s : CellState (Cell.walkForward .trendPullback).Own,
    s.trades.tradePnls = [⟨true, 1551125625, -12⟩] ∧ Reconciled (walkForward .trendPullback) s := by
  obtain ⟨s, hran, hpnls⟩ := ran_sample broad_sample
  exact ⟨s, hpnls, cell_reconciles (.walkForward .trendPullback) _ _ _ _ s hran
    (short_of_digits hpnls (by decide))⟩

set_option maxRecDepth 100000 in
theorem long_sample : (sampleRun ((sampleCandles .h1).drop 180)).toOption.map
      (fun r => r.2.2.trades.tradePnls) =
    some [⟨true, 131933086607142857142857142857142857142861422145, -50⟩] := by
  decide +kernel

/-- A stop with forty digits leaves a result that the row of its cell rounds. -/
theorem cell_disagrees : ¬ ∀ (c : Cell) (corpus : AdmittedControlCorpus) (symbol : Symbol)
    (start stop : ℤ) (s : CellState c.Own), Ran c corpus symbol start stop s →
      Reconciled c.lab s := by
  intro h
  obtain ⟨s, hran, hpnls⟩ := ran_sample long_sample
  have hrealized := (h (.walkForward .trendPullback) _ _ _ _ s hran).realized
  rw [equiv_def, hran.accounts.realized, Trades.realized, hpnls] at hrealized
  exact absurd hrealized (by decide +kernel)

end Sample

end StrategyLab

end TradingLab
