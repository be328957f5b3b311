import TradingLab.Accounting.Book
import TradingLab.Backtest.Portfolio

/-!
# Conservation over runs of the ledger

The ledger simulates a book over the rationals: as long as every sum it takes
fits the 256 digits of the context, an accepted fill posts one entry and nothing
else. An amount is a multiple of `10^-168` of at most `1.21 * 10^80`, so eighty
million fills are within reach of the context; the signs, the flat position and
the count of closed trades need no such bound.
-/

namespace TradingLab

open Decimal Method Accounting List

namespace PortfolioLedger

def exactFillLimit : ℕ := 80000000

/-- The entry an accepted fill posts. -/
def entry (f : CostedFill) : Entry ℚ where
  opens := f.reference.action = .enterLong
  cash := f.cashDelta.toRat
  asset := f.assetDelta.toRat
  fee := f.feeQuote.toRat
  slippage := f.slippageQuote.toRat

/-- The book the ledger's fields stand for. -/
def view (s : PortfolioLedger) : Book ℚ where
  cash := s.cash.toRat
  held := s.assetQuantity.toRat
  basis := s.costBasisQuote.toRat
  realized := s.realizedPnlQuote.toRat
  fees := s.totalFeeQuote.toRat
  slippage := s.totalSlippageQuote.toRat
  closed := s.closedTrades

def isExit (f : CostedFill) : Bool := f.reference.action = .exitLong

/-- What holds in every state, however many fills were accepted. -/
structure Sound (spec : BacktestSpec) (fs : List CostedFill) (s : PortfolioLedger) : Prop where
  same_spec : s.spec = spec
  policy : ∀ f ∈ fs, f.UsesPolicy spec
  cash_nonneg : 0 ≤ s.cash.toRat
  asset_nonneg : 0 ≤ s.assetQuantity.toRat
  flat : ¬ s.hasPosition → s.costBasisQuote.toRat = 0
  basis : OnGrid 168 s.costBasisQuote.toRat ∧ |s.costBasisQuote.toRat| ≤ 121 / 100 * 10 ^ 80
  closed : s.closedTrades = fs.countP isExit
  applied : s.applied = fs
  lastFill : s.lastFillTimeMs = fs.getLast?.map fun f => f.reference.fillTimeMs
  representable : Representable decimalPrecision s.cash.toRat

theorem sound_init (spec : BacktestSpec) : Sound spec [] (init spec) where
  same_spec := rfl
  policy := by simp
  cash_nonneg := spec.facts.2.1.1.le
  asset_nonneg := by simp [init]
  flat := by simp [init]
  basis := by simp [init, onGrid_zero]
  closed := rfl
  applied := rfl
  lastFill := rfl
  representable := by
    obtain ⟨-, ⟨c0, c1, hc⟩, -⟩ := spec.facts
    refine representable_of_onGrid (b := 16) hc ?_ (by decide)
    rw [init, abs_of_pos c0]
    linarith

variable {spec : BacktestSpec} {fs : List CostedFill} {s : PortfolioLedger} {f : CostedFill}

theorem Accepts.entry_amounts (h : s.Accepts f) (hspec : s.spec = spec) :
    (OnGrid 168 f.cashDelta.toRat ∧ OnGrid 168 f.feeQuote.toRat ∧
      OnGrid 168 f.slippageQuote.toRat) ∧
    |f.cashDelta.toRat| ≤ 121 / 100 * 10 ^ 80 := by
  have hp := h.policy
  rw [hspec] at hp
  obtain ⟨cash, fee, slip, -⟩ := hp.toRat
  rw [cash, fee, slip]
  exact ⟨hp.onGrid, hp.abs_le.1⟩

theorem Sound.posted (hs : Sound spec fs s) (h : s.Accepts f) :
    Sound spec (fs ++ [f]) (s.posted f) := by
  have hamount := h.entry_amounts hs.same_spec
  have hpolicy : ∀ g ∈ fs ++ [f], g.UsesPolicy spec := by
    intro g hg
    rw [mem_append, mem_singleton] at hg
    rcases hg with hg | rfl
    · exact hs.policy g hg
    · rw [← hs.same_spec]
      exact h.policy
  have hc := h.cash
  have hq := h.asset
  have hrep : Representable decimalPrecision (add decimalPrecision s.cash f.cashDelta).toRat :=
    representable_round (by decide) _
  rw [le_def, toRat_zero] at hc hq
  rcases f.reference.action_cases with ha | ha
  · rw [posted_enter ha] at hc hq ⊢
    have hpos : 0 < f.assetDelta.toRat := by
      obtain ⟨-, -, -, hd⟩ := h.policy.toRat
      have := f.reference.facts.2.1.2
      rw [hd, CostedFill.exact, exactFill]
      simpa only [ha, if_true] using this
    refine ⟨hs.same_spec, hpolicy, hc, hq, ?_, ?_, ?_, ?_, ?_, hrep⟩
    · intro hflat
      exact (hflat (by rw [hasPosition, lt_def, toRat_zero]; exact hpos)).elim
    · rw [toRat_copyNegate, abs_neg]
      exact ⟨hamount.1.1.neg, hamount.2⟩
    · simp [hs.closed, isExit, ha]
    · simp [hs.applied]
    · simp
  · have hne : f.reference.action ≠ .enterLong := by simp [ha]
    rw [posted_exit hne] at hc hq ⊢
    refine ⟨hs.same_spec, hpolicy, hc, hq, fun _ => toRat_zero, ?_, ?_, ?_, ?_, hrep⟩
    · simp [onGrid_zero]
    · simp [hs.closed, isExit, ha]
    · simp [hs.applied]
    · simp

theorem abs_sum_le {l : List ℚ} {b : ℚ} (h : ∀ q ∈ l, |q| ≤ b) : |l.sum| ≤ l.length * b := by
  induction l with
  | nil => simp
  | cons q l ih =>
    have hq := h q (by simp)
    have hl := ih fun p hp => h p (by simp [hp])
    rw [sum_cons, length_cons]
    push_cast
    linarith [abs_add_le q l.sum]

theorem sum_fits (amount : CostedFill → ℚ) {c : ℚ} (hlen : fs.length ≤ exactFillLimit)
    (hgrid : ∀ f ∈ fs, OnGrid 168 (amount f)) (hb : ∀ f ∈ fs, |amount f| ≤ 121 / 100 * 10 ^ 80)
    (hc : OnGrid 168 c) (c1 : |c| ≤ 10 ^ 15) : Fits 168 88 (c + (fs.map amount).sum) := by
  have hsum := abs_sum_le (l := fs.map amount) (b := 121 / 100 * 10 ^ 80) (by simpa using hb)
  rw [length_map] at hsum
  have hn : (fs.length : ℚ) ≤ 80000000 := by exact_mod_cast hlen
  refine ⟨hc.add (OnGrid.list_sum (by simpa using hgrid)), ?_⟩
  calc |c + (fs.map amount).sum| ≤ |c| + |(fs.map amount).sum| := abs_add_le _ _
    _ ≤ 10 ^ 15 + 80000000 * (121 / 100 * 10 ^ 80) := by
        refine add_le_add c1 (hsum.trans ?_)
        exact mul_le_mul_of_nonneg_right hn (by positivity)
    _ < 10 ^ 88 := by norm_num

theorem map_entry (g : Entry ℚ → ℚ) : (fs.map entry).map g = fs.map fun f => g (entry f) := by
  rw [map_map]
  rfl

theorem sum_cash_fits {c : ℚ} (hp : ∀ f ∈ fs, f.UsesPolicy spec)
    (hlen : fs.length ≤ exactFillLimit) (hc : OnGrid 168 c) (c1 : |c| ≤ 10 ^ 15) :
    Fits 168 88 (c + ((fs.map entry).map Entry.cash).sum) := by
  rw [map_entry]
  refine sum_fits (fun f => (entry f).cash) hlen ?_ ?_ hc c1
  · intro f hf
    rw [entry, (hp f hf).toRat.1]
    exact (hp f hf).onGrid.1
  · intro f hf
    rw [entry, (hp f hf).toRat.1]
    exact (hp f hf).abs_le.1

theorem sum_fee_fits (hp : ∀ f ∈ fs, f.UsesPolicy spec) (hlen : fs.length ≤ exactFillLimit) :
    Fits 168 88 ((fs.map entry).map Entry.fee).sum := by
  rw [map_entry, ← zero_add (List.sum _)]
  refine sum_fits (fun f => (entry f).fee) hlen ?_ ?_ (onGrid_zero _) (by norm_num)
  · intro f hf
    rw [entry, (hp f hf).toRat.2.1]
    exact (hp f hf).onGrid.2.1
  · intro f hf
    rw [entry, (hp f hf).toRat.2.1]
    exact (hp f hf).abs_le.2.1

theorem sum_slippage_fits (hp : ∀ f ∈ fs, f.UsesPolicy spec)
    (hlen : fs.length ≤ exactFillLimit) :
    Fits 168 88 ((fs.map entry).map Entry.slippage).sum := by
  rw [map_entry, ← zero_add (List.sum _)]
  refine sum_fits (fun f => (entry f).slippage) hlen ?_ ?_ (onGrid_zero _) (by norm_num)
  · intro f hf
    rw [entry, (hp f hf).toRat.2.2.1]
    exact (hp f hf).onGrid.2.2
  · intro f hf
    rw [entry, (hp f hf).toRat.2.2.1]
    exact (hp f hf).abs_le.2.2

/-- No sum that a fill takes part in rounds. -/
structure PostsExactly (s : PortfolioLedger) (f : CostedFill) : Prop where
  cash : (add decimalPrecision s.cash f.cashDelta).toRat = s.cash.toRat + f.cashDelta.toRat
  gain : (sub decimalPrecision f.cashDelta s.costBasisQuote).toRat =
    f.cashDelta.toRat - s.costBasisQuote.toRat
  realized : (add decimalPrecision s.realizedPnlQuote
      (sub decimalPrecision f.cashDelta s.costBasisQuote)).toRat =
    s.realizedPnlQuote.toRat + (f.cashDelta.toRat - s.costBasisQuote.toRat)
  fees : (add decimalPrecision s.totalFeeQuote f.feeQuote).toRat =
    s.totalFeeQuote.toRat + f.feeQuote.toRat
  slippage : (add decimalPrecision s.totalSlippageQuote f.slippageQuote).toRat =
    s.totalSlippageQuote.toRat + f.slippageQuote.toRat

/-- Within the limit the next fill rounds nothing, whether it is accepted or not. -/
theorem Sound.postsExactly (hs : Sound spec fs s)
    (hb : Book.Balanced spec.cashDecimal.toRat (fs.map entry) (view s)) (hf : f.UsesPolicy spec)
    (hlen : (fs ++ [f]).length ≤ exactFillLimit) : s.PostsExactly f := by
  have hp : 0 < decimalPrecision := by decide
  have hfit : 168 + 88 ≤ decimalPrecision := by decide
  have hpol : ∀ g ∈ fs ++ [f], g.UsesPolicy spec := by
    intro g hg
    rcases mem_append.mp hg with hg | hg
    · exact hs.policy g hg
    · rw [mem_singleton.mp hg]
      exact hf
  obtain ⟨-, ⟨c0, c1, hc⟩, -⟩ := spec.facts
  have hcash := sum_cash_fits hpol hlen (hc.mono (by norm_num)) (by rwa [abs_of_pos c0])
  have hresult := sum_cash_fits hpol hlen (onGrid_zero _) (by norm_num)
  have hfee := sum_fee_fits hpol hlen
  have hslip := sum_slippage_fits hpol hlen
  have last : ∀ g : Entry ℚ → ℚ, (((fs ++ [f]).map entry).map g).sum =
      ((fs.map entry).map g).sum + g (entry f) := by
    intro g
    simp
  rw [last] at hcash hfee hslip hresult
  rw [← hb.fees] at hfee
  rw [← hb.slippage] at hslip
  rw [← add_assoc, ← hb.cash] at hcash
  have hgain : (sub decimalPrecision f.cashDelta s.costBasisQuote).toRat =
      f.cashDelta.toRat - s.costBasisQuote.toRat := by
    obtain ⟨cash, -⟩ := hf.toRat
    have hgrid := hf.onGrid.1
    have hbound := hf.abs_le.1
    rw [← cash] at hgrid hbound
    refine toRat_sub hp (Fits.representable (f := 168) (b := 81)
      ⟨hgrid.sub hs.basis.1, ?_⟩ (by decide))
    calc |f.cashDelta.toRat - s.costBasisQuote.toRat|
        ≤ |f.cashDelta.toRat| + |s.costBasisQuote.toRat| := abs_sub _ _
      _ ≤ 121 / 100 * 10 ^ 80 + 121 / 100 * 10 ^ 80 := add_le_add hbound hs.basis.2
      _ < 10 ^ 81 := by norm_num
  have hreal : s.realizedPnlQuote.toRat + (f.cashDelta.toRat - s.costBasisQuote.toRat) =
      0 + (((fs.map entry).map Entry.cash).sum + (entry f).cash) := by
    have hr := hb.realized
    have hc := hb.cash
    simp only [view] at hr hc
    simp only [entry] at hc ⊢
    linarith
  have hrealized : (add decimalPrecision s.realizedPnlQuote
      (sub decimalPrecision f.cashDelta s.costBasisQuote)).toRat =
      s.realizedPnlQuote.toRat + (f.cashDelta.toRat - s.costBasisQuote.toRat) := by
    rw [toRat_add hp, hgain]
    rw [hgain, hreal]
    exact hresult.representable hfit
  exact ⟨toRat_add hp (hcash.representable hfit), hgain, hrealized,
    toRat_add hp (hfee.representable hfit), toRat_add hp (hslip.representable hfit)⟩

theorem view_posted (hs : Sound spec fs s)
    (hb : Book.Balanced spec.cashDecimal.toRat (fs.map entry) (view s)) (h : s.Accepts f)
    (hlen : (fs ++ [f]).length ≤ exactFillLimit) :
    view (s.posted f) = (view s).post (entry f) := by
  have hpol : f.UsesPolicy spec := by
    rw [← hs.same_spec]
    exact h.policy
  obtain ⟨cash, -, realized, fee, slip⟩ := hs.postsExactly hb hpol hlen
  rcases f.reference.action_cases with ha | ha
  · rw [posted_enter ha]
    have ho : (entry f).opens = true := by simp [entry, ha]
    rw [Book.post, if_pos ho]
    simp only [view, toRat_copyNegate, cash, fee, slip, entry]
  · have hne : f.reference.action ≠ .enterLong := by simp [ha]
    rw [posted_exit hne]
    have ho : ¬ (entry f).opens = true := by simp [entry, ha]
    rw [Book.post, if_neg ho]
    simp only [view, toRat_zero, cash, fee, slip, realized, entry]

/-- The ledger agrees with the fills it accepted. -/
structure Conserves (spec : BacktestSpec) (fs : List CostedFill) (s : PortfolioLedger) : Prop where
  cash : s.cash.toRat = spec.cashDecimal.toRat + (fs.map fun f => f.cashDelta.toRat).sum
  flat : ¬ s.hasPosition → s.cash.toRat = spec.cashDecimal.toRat + s.realizedPnlQuote.toRat
  long : s.hasPosition → s.cash.toRat =
    spec.cashDecimal.toRat + s.realizedPnlQuote.toRat - s.costBasisQuote.toRat
  fees : s.totalFeeQuote.toRat = (fs.map fun f => f.feeQuote.toRat).sum
  slippage : s.totalSlippageQuote.toRat = (fs.map fun f => f.slippageQuote.toRat).sum

theorem conserves_of_balanced (hs : Sound spec fs s)
    (hb : Book.Balanced spec.cashDecimal.toRat (fs.map entry) (view s)) : Conserves spec fs s := by
  have hcash := hb.cash
  have hfees := hb.fees
  have hslip := hb.slippage
  rw [map_entry] at hcash hfees hslip
  refine ⟨hcash, ?_, fun _ => hb.realized, hfees, hslip⟩
  intro hflat
  have := hb.realized
  simp only [view, hs.flat hflat, sub_zero] at this
  exact this

theorem sound_run (spec : BacktestSpec) (calls : List Call) :
    Sound spec (acceptedFills calls (init spec)) (run Call.method calls (init spec)) :=
  run_induction (sound_init spec) (fun _ _ _ hs h => hs.posted h) calls

theorem balanced_run (spec : BacktestSpec) (calls : List Call)
    (hlen : (acceptedFills calls (init spec)).length ≤ exactFillLimit) :
    Book.Balanced spec.cashDecimal.toRat ((acceptedFills calls (init spec)).map entry)
      (view (run Call.method calls (init spec))) := by
  refine (run_induction (I := fun fs s => Sound spec fs s ∧ (fs.length ≤ exactFillLimit →
    Book.Balanced spec.cashDecimal.toRat (fs.map entry) (view s))) ?_ ?_ calls).2 hlen
  · refine ⟨sound_init spec, fun _ => ?_⟩
    have hview : view (init spec) = Book.opening spec.cashDecimal.toRat := by
      simp [view, init, Book.opening]
    rw [hview]
    exact Book.balanced_opening _
  · rintro fs s f ⟨hs, hb⟩ h
    refine ⟨hs.posted h, fun hlen => ?_⟩
    have hbal := hb (by simp at hlen; omega)
    rw [view_posted hs hbal h hlen, map_append, map_singleton]
    refine hbal.post _ fun ho => ?_
    have hflat := h.enter (by simpa [entry] using ho)
    exact hs.flat hflat

/-- What holds in every state of the ledger. -/
structure WellKept (fs : List CostedFill) (s : PortfolioLedger) : Prop where
  cash_nonneg : 0 ≤ s.cash.toRat
  asset_nonneg : 0 ≤ s.assetQuantity.toRat
  flat : ¬ s.hasPosition → s.costBasisQuote.toRat = 0
  closed : s.closedTrades = fs.countP isExit
  /-- A call that raises changes no field. -/
  atomic : ∀ c : Call, ¬ c.method.Returns s → c.method.after s = s

theorem ledger_conservation (spec : BacktestSpec) (calls : List Call) :
    let fs := acceptedFills calls (init spec)
    let s := run Call.method calls (init spec)
    WellKept fs s ∧ (fs.length ≤ exactFillLimit → Conserves spec fs s) := by
  intro fs s
  have hs := sound_run spec calls
  refine ⟨⟨hs.cash_nonneg, hs.asset_nonneg, hs.flat, hs.closed, fun c => after_of_not_returns c⟩, ?_⟩
  intro hlen
  exact conserves_of_balanced hs (balanced_run spec calls hlen)

/-- A later fill of the right kind is accepted as soon as the exact cash suffices. -/
theorem Sound.accepts (hs : Sound spec fs s) (hsym : f.reference.symbol = spec.symbol)
    (hpol : f.UsesPolicy spec)
    (hlater : ∀ g ∈ fs, g.reference ≠ f.reference ∧
      g.reference.fillTimeMs ≤ f.reference.fillTimeMs)
    (henter : f.reference.action = .enterLong → ¬ s.hasPosition)
    (hexit : f.reference.action ≠ .enterLong →
      s.hasPosition ∧ copyNegate f.assetDelta ≈ s.assetQuantity)
    (hcash : 0 ≤ s.cash.toRat + f.cashDelta.toRat) : s.Accepts f where
  symbol := by rw [hs.same_spec, hsym]
  policy := by rwa [hs.same_spec]
  fresh := by
    intro ⟨g, hg, hsame⟩
    rw [hs.applied] at hg
    exact (hlater g hg).1 hsame.reference
  order := by
    intro t ht
    rw [hs.lastFill, Option.mem_def, Option.map_eq_some_iff] at ht
    obtain ⟨g, hg, rfl⟩ := ht
    exact (hlater g (mem_of_getLast? hg)).2
  enter := henter
  exit := hexit
  cash := by
    rw [le_def, toRat_zero]
    exact toRat_round_nonneg (by rwa [toRat_addExact])
  asset := by
    rw [le_def, toRat_zero]
    rcases f.reference.action_cases with ha | ha
    · rw [posted_enter ha, hpol.toRat.2.2.2, CostedFill.exact, exactFill]
      simp only [ha, if_true]
      exact f.reference.facts.2.1.2.le
    · rw [posted_exit (by simp [ha]), toRat_zero]

/-! ### A long run of round trips

A round trip here buys almost `10^40` units for next to nothing and sells them at
almost `10^40` each, so that it earns nearly `10^80` and moves the last of the
168 fraction digits by one. After two hundred million of them the exact cash
needs 257 digits.
-/

def finestRate : String := "0.0000000000000000000000000000000000000001"

def wideAmount : String :=
  "9999999999999999999999999999999999999999.0000000000000000000000000000000000000001"

def widePrice : String :=
  "9999999999999999999999999999999999999999.0000000000000000000000000000000000000002"

def roundTripSpec : BacktestSpec where
  symbol := .btcusdt
  startTimeMs := 0
  endTimeMs := 3600000
  feeBps := finestRate
  slippageBps := finestRate
  valid := by decide

theorem positive_texts :
    (decimalPattern wideAmount ∧ 0 < ofText wideAmount) ∧
      (decimalPattern finestRate ∧ 0 < ofText finestRate) ∧
      decimalPattern widePrice ∧ 0 < ofText widePrice := by
  decide +kernel

def enterReference (k : ℕ) : FillReference where
  action := .enterLong
  symbol := .btcusdt
  decisionTimeMs := 3600000 * (k + 1)
  fillTimeMs := 3600000 * (k + 1)
  quantity := wideAmount
  referencePrice := finestRate
  reason := .nextPrimaryOpen
  valid := FillReference.Fields.postInit_eq_ok.mpr
    ⟨by simp, positive_texts.1, positive_texts.2.1⟩

def exitReference (k : ℕ) : FillReference where
  action := .exitLong
  symbol := .btcusdt
  decisionTimeMs := 3600000 * (k + 1)
  fillTimeMs := 3600000 * (k + 1)
  quantity := wideAmount
  referencePrice := widePrice
  reason := .scriptedExit
  valid := FillReference.Fields.postInit_eq_ok.mpr
    ⟨by simp, positive_texts.1, positive_texts.2.2⟩

def enterFill (k : ℕ) : CostedFill := costFill (enterReference k) roundTripSpec
def exitFill (k : ℕ) : CostedFill := costFill (exitReference k) roundTripSpec

theorem ledger_conservation_round_trip :
    let calls := [Call.applyMany [enterFill 0, exitFill 0], Call.apply (exitFill 1)]
    acceptedFills calls (init roundTripSpec) = [enterFill 0, exitFill 0] ∧
      Conserves roundTripSpec (acceptedFills calls (init roundTripSpec))
        (run Call.method calls (init roundTripSpec)) := by
  intro calls
  have hfs : acceptedFills calls (init roundTripSpec) = [enterFill 0, exitFill 0] := by
    decide +kernel
  exact ⟨hfs, (ledger_conservation roundTripSpec calls).2 (by rw [hfs]; decide)⟩

/-- Units bought in one round trip, in units of `10^-40`. -/
def tripUnits : ℤ := 10 ^ 80 - 10 ^ 40 + 1

/-- What one round trip earns, in units of `10^-168`. -/
def tripGain : ℤ :=
  tripUnits * ((10 ^ 80 - 10 ^ 40 + 2) * (10 ^ 44 - 1) ^ 2 - (10 ^ 44 + 1) ^ 2)

theorem toRat_texts :
    (ofText wideAmount).toRat = tripUnits / 10 ^ 40 ∧ (ofText finestRate).toRat = 1 / 10 ^ 40 ∧
      (ofText widePrice).toRat = (10 ^ 80 - 10 ^ 40 + 2) / 10 ^ 40 := by
  have h1 : ofText wideAmount = ⟨false, 10 ^ 80 - 10 ^ 40 + 1, -40⟩ := by decide +kernel
  have h2 : ofText finestRate = ⟨false, 1, -40⟩ := by decide +kernel
  have h3 : ofText widePrice = ⟨false, 10 ^ 80 - 10 ^ 40 + 2, -40⟩ := by decide +kernel
  rw [h1, h2, h3]
  norm_num [toRat, int, tripUnits]

theorem cashDelta_enterFill (k : ℕ) : (enterFill k).cashDelta.toRat =
    -(tripUnits * (10 ^ 44 + 1) ^ 2 / 10 ^ 168) := by
  obtain ⟨hq, hr, -⟩ := toRat_texts
  rw [enterFill, (usesPolicy_costFill (enterReference k) roundTripSpec).toRat.1]
  change -1 * ((ofText wideAmount).toRat * ((ofText finestRate).toRat *
    (1 + (ofText finestRate).toRat / 10000))) - ((ofText wideAmount).toRat *
    ((ofText finestRate).toRat * (1 + (ofText finestRate).toRat / 10000))) *
    ((ofText finestRate).toRat / 10000) = _
  rw [hq, hr]
  ring

theorem cashDelta_exitFill (k : ℕ) : (exitFill k).cashDelta.toRat =
    tripUnits * ((10 ^ 80 - 10 ^ 40 + 2) * (10 ^ 44 - 1) ^ 2) / 10 ^ 168 := by
  obtain ⟨hq, hr, hp⟩ := toRat_texts
  rw [exitFill, (usesPolicy_costFill (exitReference k) roundTripSpec).toRat.1]
  change 1 * ((ofText wideAmount).toRat * ((ofText widePrice).toRat *
    (1 - (ofText finestRate).toRat / 10000))) - ((ofText wideAmount).toRat *
    ((ofText widePrice).toRat * (1 - (ofText finestRate).toRat / 10000))) *
    ((ofText finestRate).toRat / 10000) = _
  rw [hq, hr, hp]
  ring

def tripFills (n : ℕ) : List CostedFill :=
  (List.range n).flatMap fun k => [enterFill k, exitFill k]

def roundTrips (n : ℕ) : List Call :=
  (List.range n).flatMap fun k => [.apply (enterFill k), .apply (exitFill k)]

theorem tripFills_succ (n : ℕ) : tripFills (n + 1) = tripFills n ++ [enterFill n, exitFill n] := by
  simp [tripFills, range_succ]

theorem roundTrips_succ (n : ℕ) :
    roundTrips (n + 1) = roundTrips n ++ [.apply (enterFill n)] ++ [.apply (exitFill n)] := by
  simp [roundTrips, range_succ]

theorem time_of_mem_tripFills {n : ℕ} {g : CostedFill} (h : g ∈ tripFills n) :
    g.reference.fillTimeMs < 3600000 * (n + 1) := by
  simp only [tripFills, mem_flatMap, mem_range, mem_cons, not_mem_nil,
    or_false] at h
  obtain ⟨k, hk, rfl | rfl⟩ := h
  · change (3600000 * (k + 1) : ℤ) < _
    omega
  · change (3600000 * (k + 1) : ℤ) < _
    omega

theorem sum_tripFills (n : ℕ) :
    ((tripFills n).map fun f => f.cashDelta.toRat).sum = n * tripGain / 10 ^ 168 := by
  induction n with
  | zero => simp [tripFills]
  | succ n ih =>
    rw [tripFills_succ, map_append, sum_append, ih]
    simp only [map_cons, map_nil, sum_cons, sum_nil, cashDelta_enterFill,
      cashDelta_exitFill]
    push_cast [tripGain]
    ring

theorem toRat_assetDelta_trip (k : ℕ) :
    (enterFill k).assetDelta.toRat = (ofText wideAmount).toRat ∧
      (exitFill k).assetDelta.toRat = -(ofText wideAmount).toRat := by
  constructor
  · rw [enterFill, (usesPolicy_costFill (enterReference k) roundTripSpec).toRat.2.2.2]
    rfl
  · rw [exitFill, (usesPolicy_costFill (exitReference k) roundTripSpec).toRat.2.2.2]
    rfl

theorem toRat_cash_roundTripSpec : roundTripSpec.cashDecimal.toRat = 10000 := by
  have h : roundTripSpec.cashDecimal = ⟨false, 10000, 0⟩ := by decide
  norm_num [h, toRat, int]

theorem tripGain_pos : 0 < tripGain := by decide +kernel

/-- The cash that exact round trips leave. -/
def tripCash (n : ℕ) : ℚ := 10000 + n * tripGain / 10 ^ 168

/-- If the cash were exact, every round trip would be accepted in full. -/
theorem acceptedFills_roundTrips {limit : ℕ}
    (law : ∀ n ≤ limit, acceptedFills (roundTrips n) (init roundTripSpec) = tripFills n →
      ¬ (run Call.method (roundTrips n) (init roundTripSpec)).hasPosition →
      (run Call.method (roundTrips n) (init roundTripSpec)).cash.toRat = tripCash n) (n : ℕ)
    (hn : n ≤ limit) : acceptedFills (roundTrips n) (init roundTripSpec) = tripFills n ∧
      ¬ (run Call.method (roundTrips n) (init roundTripSpec)).hasPosition := by
  induction n with
  | zero => exact ⟨rfl, by decide⟩
  | succ n ih =>
    obtain ⟨hfs, hflat⟩ := ih (by omega)
    have hs := sound_run roundTripSpec (roundTrips n)
    have hcash := law n (by omega) hfs hflat
    rw [hfs] at hs
    rw [tripCash] at hcash
    have henter : (run Call.method (roundTrips n) (init roundTripSpec)).Accepts (enterFill n) := by
      refine hs.accepts rfl (usesPolicy_costFill _ _) ?_ (fun _ => hflat) ?_ ?_
      · intro g hg
        have hg := time_of_mem_tripFills hg
        change _ ∧ _ ≤ (3600000 * (n + 1) : ℤ)
        refine ⟨fun h => ?_, hg.le⟩
        rw [h] at hg
        exact lt_irrefl _ hg
      · intro h
        exact (h rfl).elim
      · rw [hcash, cashDelta_enterFill]
        have hcost : (tripUnits * (10 ^ 44 + 1) ^ 2 / 10 ^ 168 : ℚ) ≤ 10000 := by
          norm_num [tripUnits]
        have hgain : (0 : ℚ) ≤ n * tripGain / 10 ^ 168 := by
          have : (0 : ℚ) < tripGain := by exact_mod_cast tripGain_pos
          positivity
        linarith
    obtain ⟨hfs1, hrun1⟩ := run_snoc_apply henter
    have hs1 := hs.posted henter
    have hexit : ((run Call.method (roundTrips n) (init roundTripSpec)).posted (enterFill n)).Accepts
        (exitFill n) := by
      refine hs1.accepts rfl (usesPolicy_costFill _ _) ?_ ?_ ?_ ?_
      · intro g hg
        rw [mem_append, mem_singleton] at hg
        rcases hg with hg | rfl
        · have hg := time_of_mem_tripFills hg
          change _ ∧ _ ≤ (3600000 * (n + 1) : ℤ)
          refine ⟨fun h => ?_, hg.le⟩
          rw [h] at hg
          exact lt_irrefl _ hg
        · exact ⟨fun h => absurd (congrArg (fun r => r.action) h) (by simp [enterFill, exitFill, costFill,
              enterReference, exitReference]), le_refl _⟩
      · intro h
        cases h
      · intro _
        obtain ⟨hin, hout⟩ := toRat_assetDelta_trip n
        have hpos := positive_texts.1.2
        rw [lt_def, toRat_zero] at hpos
        rw [posted_enter rfl]
        constructor
        · rw [hasPosition, lt_def, toRat_zero, hin]
          exact hpos
        · rw [equiv_def, toRat_copyNegate, hin, hout, neg_neg]
      · have h0 := hs1.cash_nonneg
        have h1 : (0 : ℚ) ≤ (exitFill n).cashDelta.toRat := by
          rw [cashDelta_exitFill]
          norm_num [tripUnits]
        linarith
    rw [← hrun1] at hexit
    obtain ⟨hfs2, hrun2⟩ := run_snoc_apply hexit
    rw [roundTrips_succ, hfs2, hfs1, hfs, tripFills_succ, hrun2, append_assoc]
    refine ⟨rfl, ?_⟩
    have hout : (exitFill n).reference.action ≠ .enterLong := nofun
    rw [posted_exit hout, hasPosition, lt_def, toRat_zero]
    exact lt_irrefl 0

/-- A number with more digits than the context, the last of them not zero, is never stored. -/
theorem not_representable {n : ℕ} {e : ℤ} (hn : 10 ^ decimalPrecision ≤ n) (hd : ¬ 10 ∣ n) :
    ¬ Representable decimalPrecision (n * (10 : ℚ) ^ e) := by
  intro h
  have hdigits : decimalPrecision < digits n := by
    by_contra hle
    have hlt := lt_pow_digits n
    have := Nat.pow_le_pow_right (by norm_num : 0 < 10) (Nat.not_lt.mp hle)
    omega
  have hdvd := pow_dvd_coefficient (d := ⟨false, n, e⟩) (by decide) hdigits (by simpa [toRat, int])
  exact hd ((dvd_pow_self 10 (by simp only; omega)).trans hdvd)

theorem not_tripCash (law : ∀ n ≤ 200000001,
    acceptedFills (roundTrips n) (init roundTripSpec) = tripFills n →
    ¬ (run Call.method (roundTrips n) (init roundTripSpec)).hasPosition →
    (run Call.method (roundTrips n) (init roundTripSpec)).cash.toRat = tripCash n) : False := by
  obtain ⟨hfs, hflat⟩ := acceptedFills_roundTrips law 200000001 le_rfl
  have hrep := (sound_run roundTripSpec (roundTrips 200000001)).representable
  rw [law 200000001 le_rfl hfs hflat, tripCash] at hrep
  refine not_representable (n := 10 ^ 172 + 200000001 * tripGain.toNat) (e := -168)
    (by decide +kernel) (by decide +kernel) ?_
  have hgain : (tripGain.toNat : ℚ) = tripGain := by
    exact_mod_cast Int.toNat_of_nonneg tripGain_pos.le
  push_cast
  rw [hgain]
  convert hrep using 1
  rw [zpow_neg, ← div_eq_mul_inv]
  norm_num
  ring

theorem not_ledger_conservation_unbounded :
    ¬ ∀ (spec : BacktestSpec) (calls : List Call),
      WellKept (acceptedFills calls (init spec)) (run Call.method calls (init spec)) ∧
        Conserves spec (acceptedFills calls (init spec)) (run Call.method calls (init spec)) := by
  intro law
  apply not_tripCash
  intro n _ hfs hflat
  have hcash := (law roundTripSpec (roundTrips n)).2.cash
  rwa [hfs, sum_tripFills, toRat_cash_roundTripSpec] at hcash

end PortfolioLedger

end TradingLab
