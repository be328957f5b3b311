import TradingLab.Backtest.Conservation

/-!
# Exactness of the accounting

Texts of at most forty integer and forty fraction digits leave room: no
operation of costing rounds, and no sum of a ledger does over a hundred thousand
fills. What the ledger holds is then the book of the exact fills.
-/

namespace TradingLab

open Decimal Method Accounting

def RateText (text : String) : Prop := decimalPattern text ∧ ofText text ≤ maxCostBps

theorem RateText.facts {text : String} (h : RateText text) :
    OnGrid 40 (ofText text).toRat ∧ 0 ≤ (ofText text).toRat ∧ (ofText text).toRat ≤ 1000 := by
  obtain ⟨hp, hm⟩ := h
  rw [le_def, toRat_maxCostBps] at hm
  exact ⟨onGrid_decimalPattern hp, (decimalPattern_bounds hp).2.2.1, hm⟩

namespace PortfolioLedger

variable {spec : BacktestSpec} {fs : List CostedFill} {s : PortfolioLedger}

/-- What a fill moves, over the rationals. -/
def exactEntry (f : CostedFill) : Entry ℚ where
  opens := f.reference.action = .enterLong
  cash := f.exact.cashDelta
  asset := f.exact.assetDelta
  fee := f.exact.feeQuote
  slippage := f.exact.slippageQuote

/-- The book of a list of fills, over the rationals. -/
def referenceBook (spec : BacktestSpec) (fs : List CostedFill) : Book ℚ :=
  (fs.map exactEntry).foldl Book.post (Book.opening spec.cashDecimal.toRat)

theorem entry_eq_exactEntry {f : CostedFill} (h : f.UsesPolicy spec) : entry f = exactEntry f := by
  obtain ⟨cash, fee, slip, asset⟩ := h.toRat
  rw [entry, exactEntry, cash, fee, slip, asset]

/-- The ledger's fields are those of the reference. -/
structure Exact (spec : BacktestSpec) (fs : List CostedFill) (s : PortfolioLedger) : Prop where
  sound : Sound spec fs s
  balanced : Book.Balanced spec.cashDecimal.toRat (fs.map entry) (view s)
  view : view s = referenceBook spec fs

theorem exact_init (spec : BacktestSpec) : Exact spec [] (init spec) := by
  have hview : PortfolioLedger.view (init spec) = Book.opening spec.cashDecimal.toRat := by
    simp [PortfolioLedger.view, init, Book.opening]
  refine ⟨sound_init spec, ?_, hview⟩
  rw [hview]
  exact Book.balanced_opening _

theorem Exact.posted (h : Exact spec fs s) {f : CostedFill} (hf : s.Accepts f)
    (hlen : (fs ++ [f]).length ≤ exactFillLimit) : Exact spec (fs ++ [f]) (s.posted f) := by
  have hview := view_posted h.sound h.balanced hf hlen
  have hpol : f.UsesPolicy spec := by
    rw [← h.sound.same_spec]
    exact hf.policy
  refine ⟨h.sound.posted hf, ?_, ?_⟩
  · rw [hview, List.map_append, List.map_singleton]
    apply h.balanced.post
    intro ho
    exact h.sound.flat (hf.enter (by simpa [entry] using ho))
  · rw [hview, h.view, entry_eq_exactEntry hpol, referenceBook, referenceBook, List.map_append,
      List.foldl_append]
    rfl

theorem exact_run (spec : BacktestSpec) (calls : List Call) {batch : List CostedFill}
    (h : (_applyAll batch).call (run Call.method calls (init spec)) = (.ok (), s))
    (hlen : (acceptedFills calls (init spec) ++ batch).length ≤ exactFillLimit) :
    Exact spec (acceptedFills calls (init spec) ++ batch) s := by
  have hstep : ∀ fs t f, (fs.length ≤ exactFillLimit → Exact spec fs t) → t.Accepts f →
      (fs ++ [f]).length ≤ exactFillLimit → Exact spec (fs ++ [f]) (t.posted f) := by
    intro fs t f ht hf hlen
    rw [List.length_append] at hlen
    apply (ht (by omega)).posted hf
    rwa [List.length_append]
  have hrun := run_induction (I := fun fs t => fs.length ≤ exactFillLimit → Exact spec fs t)
    (fun _ => exact_init spec) hstep calls
  exact applyAll_induction (I := fun fs t => fs.length ≤ exactFillLimit → Exact spec fs t)
    hstep hrun h hlen

/-- **Decimal exactness.** Nothing in the accounting of at most a hundred thousand fills rounds. -/
theorem decimal_exactness :
    -- every operation of costing
    (∀ (r : FillReference) (fee slippage : String), RateText fee → RateText slippage →
      CostedExactly r (ofText fee) (ofText slippage)) ∧
    -- every sum of the ledger, also in the middle of a batch
    (∀ (spec : BacktestSpec) (calls : List Call) (batch : List CostedFill) (s : PortfolioLedger)
      (f : CostedFill), (_applyAll batch).call (run Call.method calls (init spec)) = (.ok (), s) →
      (acceptedFills calls (init spec) ++ batch).length < 100000 → f.UsesPolicy spec →
      s.PostsExactly f) ∧
    -- so that the ledger holds the reference
    (∀ (spec : BacktestSpec) (calls : List Call), (acceptedFills calls (init spec)).length ≤ 100000 →
      view (run Call.method calls (init spec)) = referenceBook spec (acceptedFills calls (init spec))) ∧
    -- and the checks of a costed fill pass
    (∀ (r : FillReference) (spec : BacktestSpec), r.symbol = spec.symbol →
      ∃ f, applyCosts r spec = .ok f ∧ f.toFields.postInit = .ok ()) := by
  have hlimit : 100000 ≤ exactFillLimit := by decide
  refine ⟨?_, ?_, ?_, ?_⟩
  · intro r fee slippage hfee hslip
    obtain ⟨hf, f0, f1⟩ := hfee.facts
    obtain ⟨hs, s0, s1⟩ := hslip.facts
    exact costedExactly r hf f0 f1 hs s0 s1
  · intro spec calls batch s f hbatch hlen hf
    have hexact := exact_run spec calls hbatch (by omega)
    apply hexact.sound.postsExactly hexact.balanced hf
    rw [List.length_append, List.length_singleton]
    omega
  · intro spec calls hlen
    have hdone : (_applyAll []).call (run Call.method calls (init spec)) =
        (.ok (), run Call.method calls (init spec)) := rfl
    have hexact := exact_run spec calls hdone (by rw [List.append_nil]; omega)
    rw [List.append_nil] at hexact
    exact hexact.view
  · intro r spec hsym
    exact ⟨costFill r spec, applyCosts_eq_ok hsym, (costFill r spec).valid⟩

/-- The widest texts, and the finest. -/
theorem decimal_exactness_widest : CostedExactly (exitReference 0) (ofText finestRate)
    (ofText finestRate) ∧ (view (run Call.method [.applyMany [enterFill 0, exitFill 0]]
      (init roundTripSpec))).realized =
        (referenceBook roundTripSpec [enterFill 0, exitFill 0]).realized := by
  have hrate : RateText finestRate := ⟨positive_texts.2.1.1, by decide +kernel⟩
  have hfs : acceptedFills [.applyMany [enterFill 0, exitFill 0]] (init roundTripSpec) =
      [enterFill 0, exitFill 0] := by decide +kernel
  refine ⟨decimal_exactness.1 _ _ _ hrate hrate, ?_⟩
  have hview := decimal_exactness.2.2.1 roundTripSpec [.applyMany [enterFill 0, exitFill 0]]
    (by rw [hfs]; decide)
  rw [hview, hfs]

end PortfolioLedger

end TradingLab
