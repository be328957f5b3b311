import TradingLab.Backtest.Costs

/-!
# The portfolio ledger

The ledger holds one cash balance and at most one long position of one symbol.
`_apply` changes the fields as it goes and may raise in between; `apply` and
`apply_many` take the state first and restore it when a fill is refused.
-/

namespace TradingLab

open Decimal Method

def maxLedgerBatch : ℕ := 100000

structure PortfolioError where
  message : String
deriving Repr, DecidableEq

/-- The nine fields that `_state` reads and `_restore` writes. -/
structure LedgerState where
  cash : Decimal
  assetQuantity : Decimal
  costBasisQuote : Decimal
  realizedPnlQuote : Decimal
  totalFeeQuote : Decimal
  totalSlippageQuote : Decimal
  closedTrades : ℕ
  lastFillTimeMs : Option ℤ
  applied : List CostedFill
deriving DecidableEq

structure PortfolioLedger extends LedgerState where
  spec : BacktestSpec
deriving DecidableEq

namespace PortfolioLedger

def init (spec : BacktestSpec) : PortfolioLedger where
  cash := spec.cashDecimal
  assetQuantity := 0
  costBasisQuote := 0
  realizedPnlQuote := 0
  totalFeeQuote := 0
  totalSlippageQuote := 0
  closedTrades := 0
  lastFillTimeMs := none
  applied := []
  spec := spec

def hasPosition (s : PortfolioLedger) : Prop := 0 < s.assetQuantity

instance (s : PortfolioLedger) : Decidable s.hasPosition := by
  unfold hasPosition
  infer_instance

def _state : Method PortfolioLedger PortfolioError LedgerState := read toLedgerState

def _restore (state : LedgerState) : Method PortfolioLedger PortfolioError Unit :=
  modify fun s => { s with toLedgerState := state }

/-- `fill in self._applied`, by equality of costed fills. -/
def isApplied (s : PortfolioLedger) (fill : CostedFill) : Prop :=
  ∃ g ∈ s.applied, g.Same fill

instance (s : PortfolioLedger) (fill : CostedFill) : Decidable (s.isApplied fill) := by
  unfold isApplied
  infer_instance

/-- The checks `_apply` makes before it looks at the action. -/
def _admit (s : PortfolioLedger) (fill : CostedFill) : Except PortfolioError Unit := do
  raiseIf (fill.reference.symbol ≠ s.spec.symbol)
    ⟨"Costed fill does not belong to this portfolio"⟩
  raiseIf (¬ fill.UsesPolicy s.spec) ⟨"Costed fill uses a different cost policy"⟩
  raiseIf (s.isApplied fill) ⟨"Costed fill was already applied"⟩
  raiseIf (∃ t ∈ s.lastFillTimeMs, fill.reference.fillTimeMs < t)
    ⟨"Costed fills are out of time order"⟩

/-- The branch of `_apply` that opens the position. -/
def _enter (fill : CostedFill) : Method PortfolioLedger PortfolioError Unit := do
  let s ← read id
  check (raiseIf s.hasPosition ⟨"Overlapping portfolio positions are forbidden"⟩)
  let newCash := add decimalPrecision s.cash fill.cashDelta
  check (raiseIf (newCash < 0) ⟨"Portfolio has insufficient cash"⟩)
  modify fun s => { s with
    cash := newCash
    assetQuantity := fill.assetDelta
    costBasisQuote := copyNegate fill.cashDelta }

/-- The branch of `_apply` that closes the position. -/
def _exit (fill : CostedFill) : Method PortfolioLedger PortfolioError Unit := do
  let s ← read id
  check (raiseIf (¬ s.hasPosition ∨ ¬ copyNegate fill.assetDelta ≈ s.assetQuantity)
    ⟨"Exit must close the full long position"⟩)
  modify fun s => { s with cash := add decimalPrecision s.cash fill.cashDelta }
  modify fun s => { s with
    realizedPnlQuote := add decimalPrecision s.realizedPnlQuote
      (sub decimalPrecision fill.cashDelta s.costBasisQuote) }
  modify fun s => { s with
    assetQuantity := 0
    costBasisQuote := 0
    closedTrades := s.closedTrades + 1 }

/-- What `_apply` does after either branch. -/
def _book (fill : CostedFill) : Method PortfolioLedger PortfolioError Unit := do
  modify fun s => { s with
    totalFeeQuote := add decimalPrecision s.totalFeeQuote fill.feeQuote
    totalSlippageQuote := add decimalPrecision s.totalSlippageQuote fill.slippageQuote }
  let s ← read id
  check (raiseIf (s.cash < 0 ∨ s.assetQuantity < 0) ⟨"Portfolio balance became negative"⟩)
  modify fun s => { s with
    lastFillTimeMs := some fill.reference.fillTimeMs
    applied := s.applied ++ [fill] }

def _apply (fill : CostedFill) : Method PortfolioLedger PortfolioError Unit := do
  let s ← read id
  check (s._admit fill)
  (if fill.reference.action = .enterLong then _enter fill else _exit fill)
  _book fill

def apply (fill : CostedFill) : Method PortfolioLedger PortfolioError Unit := do
  let state ← _state
  (_apply fill).onError (_restore state)

/-- The loop of `apply_many`. -/
def _applyAll : List CostedFill → Method PortfolioLedger PortfolioError Unit
  | [] => pure ()
  | fill :: fills => do
      _apply fill
      _applyAll fills

def applyMany (fills : List CostedFill) : Method PortfolioLedger PortfolioError Unit := do
  check (raiseIf (¬ (1 ≤ fills.length ∧ fills.length ≤ maxLedgerBatch))
    ⟨"Portfolio fill batch size is invalid"⟩)
  let state ← _state
  (_applyAll fills).onError (_restore state)

/-- The two public ways to change the ledger. -/
inductive Call where
  | apply (fill : CostedFill)
  | applyMany (fills : List CostedFill)

def Call.method : Call → Method PortfolioLedger PortfolioError Unit
  | .apply fill => PortfolioLedger.apply fill
  | .applyMany fills => PortfolioLedger.applyMany fills

def Call.fills : Call → List CostedFill
  | .apply fill => [fill]
  | .applyMany fills => fills

/-- The fills of the calls that returned, in order. -/
def acceptedFills (calls : List Call) (s : PortfolioLedger) : List CostedFill :=
  (accepted Call.method calls s).flatMap Call.fills

variable {s s' : PortfolioLedger} {fill : CostedFill}

theorem _admit_eq_ok : s._admit fill = .ok () ↔
    fill.reference.symbol = s.spec.symbol ∧ fill.UsesPolicy s.spec ∧ ¬ s.isApplied fill ∧
      ∀ t ∈ s.lastFillTimeMs, t ≤ fill.reference.fillTimeMs := by
  unfold _admit
  simp only [raiseIf_bind_eq_ok, raiseIf_eq_ok, not_not, not_exists, not_and, not_lt]

/-- The fields after an accepted fill. -/
def posted (s : PortfolioLedger) (fill : CostedFill) : PortfolioLedger :=
  let enter := fill.reference.action = .enterLong
  { cash := add decimalPrecision s.cash fill.cashDelta
    assetQuantity := if enter then fill.assetDelta else 0
    costBasisQuote := if enter then copyNegate fill.cashDelta else 0
    realizedPnlQuote := if enter then s.realizedPnlQuote else
      add decimalPrecision s.realizedPnlQuote
        (sub decimalPrecision fill.cashDelta s.costBasisQuote)
    totalFeeQuote := add decimalPrecision s.totalFeeQuote fill.feeQuote
    totalSlippageQuote := add decimalPrecision s.totalSlippageQuote fill.slippageQuote
    closedTrades := if enter then s.closedTrades else s.closedTrades + 1
    lastFillTimeMs := some fill.reference.fillTimeMs
    applied := s.applied ++ [fill]
    spec := s.spec }

theorem posted_enter (h : fill.reference.action = .enterLong) : s.posted fill = { s with
    cash := add decimalPrecision s.cash fill.cashDelta
    assetQuantity := fill.assetDelta
    costBasisQuote := copyNegate fill.cashDelta
    totalFeeQuote := add decimalPrecision s.totalFeeQuote fill.feeQuote
    totalSlippageQuote := add decimalPrecision s.totalSlippageQuote fill.slippageQuote
    lastFillTimeMs := some fill.reference.fillTimeMs
    applied := s.applied ++ [fill] } := by
  unfold posted
  simp only [h, if_true]

theorem posted_exit (h : fill.reference.action ≠ .enterLong) : s.posted fill = { s with
    cash := add decimalPrecision s.cash fill.cashDelta
    assetQuantity := 0
    costBasisQuote := 0
    realizedPnlQuote := add decimalPrecision s.realizedPnlQuote
      (sub decimalPrecision fill.cashDelta s.costBasisQuote)
    totalFeeQuote := add decimalPrecision s.totalFeeQuote fill.feeQuote
    totalSlippageQuote := add decimalPrecision s.totalSlippageQuote fill.slippageQuote
    closedTrades := s.closedTrades + 1
    lastFillTimeMs := some fill.reference.fillTimeMs
    applied := s.applied ++ [fill] } := by
  unfold posted
  simp only [h, if_false]

theorem reference_costFill (r : FillReference) (spec : BacktestSpec) :
    (costFill r spec).reference = r := rfl

theorem assetDelta_costFill (r : FillReference) (spec : BacktestSpec) :
    (costFill r spec).assetDelta = if r.action = .enterLong then r.quantityDecimal
      else neg decimalPrecision r.quantityDecimal := costed_assetDelta r _ _

theorem posted_assetQuantity (s : PortfolioLedger) (f : CostedFill) : (s.posted f).assetQuantity =
    if f.reference.action = .enterLong then f.assetDelta else 0 := rfl

theorem posted_lastFill (s : PortfolioLedger) (f : CostedFill) :
    (s.posted f).lastFillTimeMs = some f.reference.fillTimeMs := rfl

theorem posted_cash (s : PortfolioLedger) (f : CostedFill) :
    (s.posted f).cash = add decimalPrecision s.cash f.cashDelta := rfl

/-- When a fill may be applied: everything the method checks. -/
structure Accepts (s : PortfolioLedger) (fill : CostedFill) : Prop where
  symbol : fill.reference.symbol = s.spec.symbol
  policy : fill.UsesPolicy s.spec
  fresh : ¬ s.isApplied fill
  order : ∀ t ∈ s.lastFillTimeMs, t ≤ fill.reference.fillTimeMs
  enter : fill.reference.action = .enterLong → ¬ s.hasPosition
  exit : fill.reference.action ≠ .enterLong →
    s.hasPosition ∧ copyNegate fill.assetDelta ≈ s.assetQuantity
  cash : 0 ≤ (s.posted fill).cash
  asset : 0 ≤ (s.posted fill).assetQuantity

theorem call_enter_eq_ok : (_enter fill).call s = (.ok (), s') ↔
    (¬ s.hasPosition ∧ 0 ≤ add decimalPrecision s.cash fill.cashDelta) ∧
      s' = { s with
        cash := add decimalPrecision s.cash fill.cashDelta
        assetQuantity := fill.assetDelta
        costBasisQuote := copyNegate fill.cashDelta } := by
  unfold _enter
  simp only [call_read_bind, call_check_bind_eq_ok, call_modify_eq_ok, raiseIf_eq_ok, exists_const,
    id, lt_def, le_def, not_lt, and_assoc]

theorem call_exit_eq_ok : (_exit fill).call s = (.ok (), s') ↔
    (s.hasPosition ∧ copyNegate fill.assetDelta ≈ s.assetQuantity) ∧
      s' = { s with
        cash := add decimalPrecision s.cash fill.cashDelta
        realizedPnlQuote := add decimalPrecision s.realizedPnlQuote
          (sub decimalPrecision fill.cashDelta s.costBasisQuote)
        assetQuantity := 0
        costBasisQuote := 0
        closedTrades := s.closedTrades + 1 } := by
  unfold _exit
  simp only [call_read_bind, call_check_bind_eq_ok, call_modify_bind, call_modify_eq_ok,
    raiseIf_eq_ok, exists_const, id, not_or, not_not]

theorem call_book_eq_ok : (_book fill).call s = (.ok (), s') ↔
    (0 ≤ s.cash ∧ 0 ≤ s.assetQuantity) ∧
      s' = { s with
        totalFeeQuote := add decimalPrecision s.totalFeeQuote fill.feeQuote
        totalSlippageQuote := add decimalPrecision s.totalSlippageQuote fill.slippageQuote
        lastFillTimeMs := some fill.reference.fillTimeMs
        applied := s.applied ++ [fill] } := by
  unfold _book
  simp only [call_read_bind, call_check_bind_eq_ok, call_modify_bind, call_modify_eq_ok,
    raiseIf_eq_ok, exists_const, id, not_or, lt_def, le_def, not_lt]

/-- The method returns exactly on the fills it accepts, and then the fields are as posted. -/
theorem call_apply_eq_ok :
    (_apply fill).call s = (.ok (), s') ↔ s.Accepts fill ∧ s' = s.posted fill := by
  unfold _apply
  simp only [call_read_bind, call_check_bind_eq_ok, id]
  constructor
  · intro h
    obtain ⟨⟨⟩, hadmitted, h⟩ := h
    obtain ⟨⟨⟩, t, ht, h⟩ := call_bind_eq_ok.mp h
    obtain ⟨⟨hc, hq⟩, rfl⟩ := call_book_eq_ok.mp h
    obtain ⟨hsym, hpol, hfresh, hord⟩ := _admit_eq_ok.mp hadmitted
    split_ifs at ht with ha
    · obtain ⟨⟨hflat, -⟩, rfl⟩ := call_enter_eq_ok.mp ht
      refine ⟨⟨hsym, hpol, hfresh, hord, fun _ => hflat, fun hn => (hn ha).elim, hc, ?_⟩, ?_⟩
      · rw [posted_enter ha]
        exact hq
      · rw [posted_enter ha]
    · obtain ⟨hpos, rfl⟩ := call_exit_eq_ok.mp ht
      refine ⟨⟨hsym, hpol, hfresh, hord, fun hn => (ha hn).elim, fun _ => hpos, hc, ?_⟩, ?_⟩
      · rw [posted_exit ha]
        exact hq
      · rw [posted_exit ha]
  · rintro ⟨⟨hsym, hpol, hfresh, hord, henter, hexit, hc, hq⟩, hs'⟩
    refine ⟨(), _admit_eq_ok.mpr ⟨hsym, hpol, hfresh, hord⟩, ?_⟩
    by_cases ha : fill.reference.action = .enterLong
    · rw [posted_enter ha] at hc hq hs'
      rw [if_pos ha]
      exact call_bind_eq_ok.mpr ⟨(), _, call_enter_eq_ok.mpr ⟨⟨henter ha, hc⟩, rfl⟩,
        call_book_eq_ok.mpr ⟨⟨hc, hq⟩, hs'⟩⟩
    · rw [posted_exit ha] at hc hq hs'
      rw [if_neg ha]
      exact call_bind_eq_ok.mpr ⟨(), _, call_exit_eq_ok.mpr ⟨hexit ha, rfl⟩,
        call_book_eq_ok.mpr ⟨⟨hc, hq⟩, hs'⟩⟩

theorem call_apply : (apply fill).call s = ((_apply fill).onError (_restore s.toLedgerState)).call s :=
  rfl

theorem call_applyMany_eq_ok {fills : List CostedFill} {s' : PortfolioLedger} :
    (applyMany fills).call s = (.ok (), s') ↔
      (1 ≤ fills.length ∧ fills.length ≤ maxLedgerBatch) ∧
        (_applyAll fills).call s = (.ok (), s') := by
  unfold applyMany
  rw [call_check_bind_eq_ok]
  constructor
  · rintro ⟨u, hsize, h⟩
    exact ⟨not_not.mp (raiseIf_eq_ok.mp hsize), call_onError_eq_ok.mp h⟩
  · rintro ⟨hsize, h⟩
    exact ⟨(), raiseIf_neg (not_not.mpr hsize), call_onError_eq_ok.mpr h⟩

theorem call_apply_single {f : CostedFill} {s' : PortfolioLedger} :
    (apply f).call s = (.ok (), s') ↔ (_applyAll [f]).call s = (.ok (), s') := by
  rw [call_apply, call_onError_eq_ok, _applyAll, call_bind_eq_ok]
  constructor
  · intro h
    exact ⟨(), s', h, rfl⟩
  · rintro ⟨⟨⟩, u, hu, h⟩
    cases h
    exact hu

theorem restore_after (s t : PortfolioLedger) (h : t.spec = s.spec) :
    (_restore s.toLedgerState).after t = s := by
  cases s
  cases t
  subst h
  rfl

theorem keeps_spec_apply (fill : CostedFill) : Keeps PortfolioLedger.spec (_apply fill) := by
  have henter : Keeps PortfolioLedger.spec (_enter fill) :=
    (keeps_read _).bind fun _ => (keeps_check _).bind fun _ => (keeps_check _).bind fun _ =>
      keeps_modify
  have hexit : Keeps PortfolioLedger.spec (_exit fill) :=
    (keeps_read _).bind fun _ => (keeps_check _).bind fun _ =>
      Keeps.bind keeps_modify fun _ => Keeps.bind keeps_modify fun _ =>
        keeps_modify
  have htail : Keeps PortfolioLedger.spec (_book fill) :=
    Keeps.bind keeps_modify fun _ => (keeps_read _).bind fun _ =>
      (keeps_check _).bind fun _ => keeps_modify
  exact (keeps_read _).bind fun _ => (keeps_check _).bind fun _ =>
    (henter.ite hexit).bind fun _ => htail

theorem keeps_spec_applyAll (fills : List CostedFill) :
    Keeps PortfolioLedger.spec (_applyAll fills) := by
  induction fills with
  | nil => exact keeps_pure _
  | cons fill fills ih => exact (keeps_spec_apply fill).bind fun _ => ih

/-- A call that raises leaves every field as it was. -/
theorem after_of_not_returns (c : Call) (h : ¬ c.method.Returns s) : c.method.after s = s := by
  cases c with
  | apply fill =>
    refine after_onError_of_error (m := _apply fill) (r := _restore s.toLedgerState) ?_ h
    intro e t ht
    exact restore_after s t ((keeps_spec_apply fill).call_eq ht)
  | applyMany fills =>
    by_cases hsize : 1 ≤ fills.length ∧ fills.length ≤ maxLedgerBatch
    · have hcall : ∀ t, (applyMany fills).call t =
          ((_applyAll fills).onError (_restore t.toLedgerState)).call t := by
        intro t
        unfold applyMany
        rw [call_bind, call_check, raiseIf_neg (not_not.mpr hsize)]
        rfl
      have hret : ¬ ((_applyAll fills).onError (_restore s.toLedgerState)).Returns s := by
        rintro ⟨a, ha⟩
        exact h ⟨a, by rw [Call.method, hcall]; exact ha⟩
      have := after_onError_of_error
        (fun e t ht => restore_after s t ((keeps_spec_applyAll fills).call_eq ht)) hret
      unfold after at this ⊢
      rw [Call.method, hcall]
      exact this
    · unfold after Call.method applyMany
      rw [call_bind, call_check, raiseIf, if_pos hsize]

variable {I : List CostedFill → PortfolioLedger → Prop}

theorem applyAll_induction (step : ∀ fs s f, I fs s → s.Accepts f → I (fs ++ [f]) (s.posted f))
    {fills fs : List CostedFill} (h0 : I fs s)
    (h : (_applyAll fills).call s = (.ok (), s')) : I (fs ++ fills) s' := by
  induction fills generalizing fs s with
  | nil =>
    cases h
    simpa using h0
  | cons fill fills ih =>
    rw [_applyAll] at h
    obtain ⟨⟨⟩, t, ht, h⟩ := call_bind_eq_ok.mp h
    obtain ⟨hacc, rfl⟩ := call_apply_eq_ok.mp ht
    have := ih (step fs s fill h0 hacc) h
    rwa [List.append_assoc] at this

theorem call_induction (step : ∀ fs s f, I fs s → s.Accepts f → I (fs ++ [f]) (s.posted f))
    {c : Call} {fs : List CostedFill} (h0 : I fs s) (h : c.method.Returns s) :
    I (fs ++ c.fills) (c.method.after s) := by
  obtain ⟨⟨⟩, h⟩ := h
  have hcall : c.method.call s = (.ok (), c.method.after s) := Prod.ext h rfl
  cases c with
  | apply fill =>
    have := call_onError_eq_ok.mp (show ((_apply fill).onError _).call s = _ from hcall)
    obtain ⟨hacc, hs'⟩ := call_apply_eq_ok.mp this
    rw [hs']
    exact step fs s fill h0 hacc
  | applyMany fills =>
    unfold Call.method applyMany at hcall
    simp only [call_check_bind_eq_ok] at hcall
    obtain ⟨⟨⟩, -, hcall⟩ := hcall
    have := call_onError_eq_ok.mp (show ((_applyAll fills).onError _).call s = _ from hcall)
    exact applyAll_induction step h0 this

/-- The induction rule of the ledger: what holds initially and survives every accepted fill
holds after every run, of the fills accepted in it. -/
theorem run_induction (h0 : I [] s)
    (step : ∀ fs s f, I fs s → s.Accepts f → I (fs ++ [f]) (s.posted f))
    (calls : List Call) : I (acceptedFills calls s) (run Call.method calls s) := by
  refine run_accepted (I := fun cs t => I (cs.flatMap Call.fills) t) h0 ?_ ?_ calls
  · intro cs c t ht hc
    rwa [after_of_not_returns c hc]
  · intro cs c t ht hc
    rw [List.flatMap_append, List.flatMap_singleton]
    exact call_induction step ht hc

theorem run_snoc_apply {calls : List Call} {t : PortfolioLedger}
    (h : (run Call.method calls t).Accepts fill) :
    acceptedFills (calls ++ [.apply fill]) t = acceptedFills calls t ++ [fill] ∧
      run Call.method (calls ++ [.apply fill]) t = (run Call.method calls t).posted fill := by
  have hcall : (apply fill).call (run Call.method calls t) =
      (.ok (), (run Call.method calls t).posted fill) := by
    rw [call_apply, call_onError_eq_ok]
    exact call_apply_eq_ok.mpr ⟨h, rfl⟩
  have hret : (Call.apply fill).method.Returns (run Call.method calls t) := ⟨(), by
    rw [Call.method, hcall]⟩
  constructor
  · rw [acceptedFills, accepted_append, List.flatMap_append]
    simp [accepted, hret, Call.fills, acceptedFills]
  · rw [run_append]
    change ((apply fill).call _).2 = _
    rw [hcall]

end PortfolioLedger

end TradingLab
