import TradingLab.Backtest.Exactness

/-!
# Two cost policies

One sequence of reference fills is costed under two policies, the one of them
cheaper in both rates. Two ledgers stay related over the whole sequence: they
hold the same quantity, and the cheaper ledger holds at least as much cash. As
rounding is monotone, this needs no bound on the number of fills; the exact
difference between the two does.
-/

namespace TradingLab

open Decimal Method Accounting List

/-- A call of the ledger whose fills are not costed yet. -/
inductive Booking where
  | apply (reference : FillReference)
  | applyMany (references : List FillReference)

namespace Booking

def references : Booking → List FillReference
  | apply reference => [reference]
  | applyMany references => references

/-- The call with its fills costed. -/
def call (spec : BacktestSpec) : Booking → PortfolioLedger.Call
  | apply reference => .apply (costFill reference spec)
  | applyMany references => .applyMany (references.map fun r => costFill r spec)

theorem fills_call (spec : BacktestSpec) (b : Booking) :
    (b.call spec).fills = b.references.map fun r => costFill r spec := by
  cases b <;> rfl

end Booking

/-- Both specifications trade one symbol with the same cash, and one of them is cheaper. -/
structure Cheaper (cheap costly : BacktestSpec) : Prop where
  symbol : cheap.symbol = costly.symbol
  cash : cheap.cashDecimal ≈ costly.cashDecimal
  fee : cheap.feeBpsDecimal ≤ costly.feeBpsDecimal
  slippage : cheap.slippageBpsDecimal ≤ costly.slippageBpsDecimal

theorem slippedPrice_anti (action : IntentAction) {price slip slip' : ℚ} (hp : 0 ≤ price)
    (h : slip ≤ slip') :
    (if action = .enterLong then -1 else 1) * slippedPrice action price slip' ≤
      (if action = .enterLong then -1 else 1) * slippedPrice action price slip := by
  unfold slippedPrice
  have hmul := mul_le_mul_of_nonneg_left h hp
  split_ifs
  · linarith
  · linarith

/-- The cheaper policy leaves more cash. -/
theorem exactFill_anti (r : FillReference) {fee fee' slip slip' : ℚ} (f0 : 0 ≤ fee)
    (hf : fee ≤ fee') (f1 : fee' ≤ 1000) (s0 : 0 ≤ slip) (hs : slip ≤ slip') (s1 : slip' ≤ 1000) :
    (exactFill r fee' slip').cashDelta ≤ (exactFill r fee slip).cashDelta := by
  obtain ⟨-, ⟨-, q0⟩, -, p0⟩ := r.facts
  have hprice := slippedPrice_anti r.action p0.le (by linarith : slip / 10000 ≤ slip' / 10000)
  have hbounds := slippedPrice_bounds r.action p0.le (by linarith : 0 ≤ slip / 10000) (by linarith)
  have hbounds' := slippedPrice_bounds r.action p0.le (by linarith : 0 ≤ slip' / 10000)
    (by linarith)
  unfold exactFill
  dsimp only
  change 0 < r.quantityDecimal.toRat at q0
  generalize slippedPrice r.action r.priceDecimal.toRat (slip / 10000) = x at *
  generalize slippedPrice r.action r.priceDecimal.toRat (slip' / 10000) = x' at *
  generalize r.quantityDecimal.toRat = q at *
  split_ifs at hprice ⊢ with ha
  · have hx : q * x ≤ q * x' := mul_le_mul_of_nonneg_left (by linarith) q0.le
    have hfee : q * x * (fee / 10000) ≤ q * x' * (fee' / 10000) :=
      mul_le_mul hx (by linarith) (by positivity) (mul_nonneg q0.le hbounds'.1)
    linarith
  · have hx : q * x' ≤ q * x := mul_le_mul_of_nonneg_left (by linarith) q0.le
    have hx0 : 0 ≤ q * x' := mul_nonneg q0.le hbounds'.1
    have hkeep : q * x' * (1 - fee' / 10000) ≤ q * x * (1 - fee / 10000) :=
      mul_le_mul hx (by linarith) (by linarith) (hx0.trans hx)
    linarith

/-- The costs of a fill, from the rates. -/
theorem exactFill_costs_le (r : FillReference) {fee slip : ℚ} (f0 : 0 ≤ fee) (s0 : 0 ≤ slip)
    (s1 : slip ≤ 1000) :
    |(exactFill r fee slip).feeQuote| ≤ 11 / 10 * 10 ^ 80 * (fee / 10000) ∧
      |(exactFill r fee slip).slippageQuote| ≤ 10 ^ 80 * (slip / 10000) := by
  obtain ⟨hq, hp⟩ := fits_reference r
  obtain ⟨-, ⟨-, q0⟩, -, p0⟩ := r.facts
  change 0 < r.quantityDecimal.toRat at q0
  change 0 < r.priceDecimal.toRat at p0
  have q1 := (abs_lt.mp hq.lt).2
  have p1 := (abs_lt.mp hp.lt).2
  have hmove := abs_slippedPrice_sub r.action p0.le (by positivity : 0 ≤ slip / 10000)
  obtain ⟨x0, x1⟩ := slippedPrice_bounds r.action p0.le (by positivity : 0 ≤ slip / 10000)
    (by linarith)
  unfold exactFill
  dsimp only
  rw [hmove]
  generalize slippedPrice r.action r.priceDecimal.toRat (slip / 10000) = x at *
  generalize r.quantityDecimal.toRat = q at *
  generalize r.priceDecimal.toRat = p at *
  constructor
  · rw [abs_of_nonneg (by positivity)]
    apply mul_le_mul_of_nonneg_right _ (by positivity)
    calc q * x ≤ 10 ^ 40 * (11 / 10 * 10 ^ 40) :=
          mul_le_mul q1.le (by linarith) x0 (by positivity)
      _ = 11 / 10 * 10 ^ 80 := by norm_num
  · rw [abs_of_nonneg (by positivity), ← mul_assoc]
    apply mul_le_mul_of_nonneg_right _ (by positivity)
    calc q * p ≤ 10 ^ 40 * 10 ^ 40 := mul_le_mul q1.le p1.le p0.le (by positivity)
      _ = 10 ^ 80 := by norm_num

namespace PortfolioLedger

variable {cheap costly : BacktestSpec} {s t : PortfolioLedger}

/-- The ledger of the cheaper policy beside the one of the costlier. -/
structure Ahead (cheap costly : BacktestSpec) (s t : PortfolioLedger) : Prop where
  spec : s.spec = cheap
  spec' : t.spec = costly
  applied : ∃ rs : List FillReference, s.applied = rs.map (fun r => costFill r cheap) ∧
    t.applied = rs.map fun r => costFill r costly
  lastFill : s.lastFillTimeMs = t.lastFillTimeMs
  quantity : s.assetQuantity = t.assetQuantity
  cash : t.cash ≤ s.cash

theorem ahead_init (h : Cheaper cheap costly) : Ahead cheap costly (init cheap) (init costly) where
  spec := rfl
  spec' := rfl
  applied := ⟨[], rfl, rfl⟩
  lastFill := rfl
  quantity := rfl
  cash := by
    rw [le_def]
    exact (equiv_def.mp h.cash).ge

theorem cashDelta_anti (h : Cheaper cheap costly) (r : FillReference) :
    (costFill r costly).cashDelta ≤ (costFill r cheap).cashDelta := by
  obtain ⟨-, -, ⟨f0, -, -⟩, s0, -, -⟩ := cheap.facts
  obtain ⟨-, -, ⟨-, f1, -⟩, -, s1, -⟩ := costly.facts
  rw [le_def, (usesPolicy_costFill r costly).toRat.1, (usesPolicy_costFill r cheap).toRat.1]
  exact exactFill_anti r f0 h.fee f1 s0 h.slippage s1

/-- What the costlier ledger accepts, the cheaper one accepts. -/
theorem Ahead.accepts (h : Cheaper cheap costly) (hst : Ahead cheap costly s t)
    {r : FillReference} (hacc : t.Accepts (costFill r costly)) :
    s.Accepts (costFill r cheap) ∧
      Ahead cheap costly (s.posted (costFill r cheap)) (t.posted (costFill r costly)) := by
  have hsum : (add decimalPrecision t.cash (costFill r costly).cashDelta) ≤
      add decimalPrecision s.cash (costFill r cheap).cashDelta := by
    apply toRat_round_mono (by decide)
    rw [toRat_addExact, toRat_addExact]
    exact add_le_add hst.cash (cashDelta_anti h r)
  have hasset : (s.posted (costFill r cheap)).assetQuantity =
      (t.posted (costFill r costly)).assetQuantity := by
    rw [posted_assetQuantity, posted_assetQuantity, assetDelta_costFill, assetDelta_costFill,
      reference_costFill, reference_costFill]
  obtain ⟨rs, hs, ht⟩ := hst.applied
  constructor
  · exact {
      symbol := by
        have hsymbol := hacc.symbol
        rw [reference_costFill] at hsymbol ⊢
        rwa [hst.spec, h.symbol, ← hst.spec']
      policy := by
        rw [hst.spec]
        exact usesPolicy_costFill r cheap
      fresh := by
        rintro ⟨g, hg, hsame⟩
        rw [hs] at hg
        obtain ⟨r', hr', rfl⟩ := mem_map.mp hg
        have heq := hsame.reference
        rw [reference_costFill, reference_costFill] at heq
        subst heq
        exact hacc.fresh ⟨costFill r' costly, by rw [ht]; exact mem_map_of_mem hr',
          ⟨rfl, rfl, rfl, Components.Same.refl _⟩⟩
      order := by
        have horder := hacc.order
        rw [reference_costFill] at horder ⊢
        rwa [hst.lastFill]
      enter := by
        have hflat := hacc.enter
        rw [reference_costFill, hasPosition] at hflat ⊢
        rwa [hst.quantity]
      exit := by
        have hopen := hacc.exit
        rw [reference_costFill, hasPosition, assetDelta_costFill] at hopen ⊢
        rwa [hst.quantity]
      cash := by
        have hcash := hacc.cash
        rw [posted_cash] at hcash ⊢
        exact (le_def.mp hcash).trans (le_def.mp hsum)
      asset := by
        rw [hasset]
        exact hacc.asset }
  · exact {
      spec := hst.spec
      spec' := hst.spec'
      applied := ⟨rs ++ [r], by rw [map_append, ← hs]; rfl, by rw [map_append, ← ht]; rfl⟩
      lastFill := by rw [posted_lastFill, posted_lastFill, reference_costFill, reference_costFill]
      quantity := hasset
      cash := by
        rw [posted_cash, posted_cash]
        exact hsum }

theorem Ahead.applyAll (h : Cheaper cheap costly) (rs : List FillReference) {t' : PortfolioLedger}
    (hst : Ahead cheap costly s t)
    (hcall : (_applyAll (rs.map fun r => costFill r costly)).call t = (.ok (), t')) :
    ∃ s', (_applyAll (rs.map fun r => costFill r cheap)).call s = (.ok (), s') ∧
      Ahead cheap costly s' t' := by
  induction rs generalizing s t with
  | nil =>
    cases hcall
    exact ⟨s, rfl, hst⟩
  | cons r rs ih =>
    rw [map_cons, _applyAll] at hcall
    obtain ⟨⟨⟩, u, hu, hrest⟩ := call_bind_eq_ok.mp hcall
    obtain ⟨hacc, rfl⟩ := call_apply_eq_ok.mp hu
    obtain ⟨hacc', hnext⟩ := hst.accepts h hacc
    obtain ⟨s', hs', hend⟩ := ih hnext hrest
    refine ⟨s', ?_, hend⟩
    rw [map_cons, _applyAll]
    exact call_bind_eq_ok.mpr ⟨(), _, call_apply_eq_ok.mpr ⟨hacc', rfl⟩, hs'⟩

theorem Ahead.booking (h : Cheaper cheap costly) (hst : Ahead cheap costly s t) (b : Booking)
    {t' : PortfolioLedger} (hcall : (b.call costly).method.call t = (.ok (), t')) :
    ∃ s', (b.call cheap).method.call s = (.ok (), s') ∧ Ahead cheap costly s' t' := by
  cases b with
  | apply r =>
    obtain ⟨s', hs', hend⟩ := hst.applyAll h [r] (call_apply_single.mp hcall)
    exact ⟨s', call_apply_single.mpr hs', hend⟩
  | applyMany rs =>
    obtain ⟨hsize, hall⟩ := call_applyMany_eq_ok.mp hcall
    obtain ⟨s', hs', hend⟩ := hst.applyAll h rs hall
    rw [length_map] at hsize
    exact ⟨s', call_applyMany_eq_ok.mpr ⟨by rwa [length_map], hs'⟩, hend⟩

/-- Every call of the sequence returns. -/
def AcceptsAll (spec : BacktestSpec) : List Booking → PortfolioLedger → Prop
  | [], _ => True
  | b :: bs, s => (b.call spec).method.Returns s ∧
      AcceptsAll spec bs ((b.call spec).method.after s)

/-- The ledger after a sequence of bookings. -/
def ledgerAfter (spec : BacktestSpec) (bs : List Booking) : PortfolioLedger :=
  run Call.method (bs.map (Booking.call spec)) (init spec)

theorem call_of_returns {m : Method PortfolioLedger PortfolioError Unit} (h : m.Returns s) :
    m.call s = (.ok (), m.after s) := by
  obtain ⟨⟨⟩, h⟩ := h
  exact Prod.ext h rfl

theorem returns_of_call {m : Method PortfolioLedger PortfolioError Unit} {s' : PortfolioLedger}
    (h : m.call s = (.ok (), s')) : m.Returns s ∧ m.after s = s' :=
  ⟨⟨(), congrArg Prod.fst h⟩, congrArg Prod.snd h⟩

theorem Ahead.run (h : Cheaper cheap costly) (bs : List Booking) (hst : Ahead cheap costly s t)
    (hacc : AcceptsAll costly bs t) :
    AcceptsAll cheap bs s ∧ ∀ n, Ahead cheap costly
      (Method.run Call.method ((bs.take n).map (Booking.call cheap)) s)
      (Method.run Call.method ((bs.take n).map (Booking.call costly)) t) := by
  induction bs generalizing s t with
  | nil =>
    refine ⟨trivial, fun n => ?_⟩
    rw [take_nil]
    exact hst
  | cons b bs ih =>
    obtain ⟨s', hs', hnext⟩ := hst.booking h b (call_of_returns hacc.1)
    obtain ⟨hret, hafter⟩ := returns_of_call hs'
    rw [← hafter] at hnext
    obtain ⟨hrest, hruns⟩ := ih hnext hacc.2
    refine ⟨⟨hret, hrest⟩, fun n => ?_⟩
    cases n with
    | zero => exact hst
    | succ n => exact hruns n

theorem acceptedFills_of_acceptsAll {spec : BacktestSpec} (bs : List Booking)
    (h : AcceptsAll spec bs s) : acceptedFills (bs.map (Booking.call spec)) s =
      (bs.flatMap Booking.references).map fun r => costFill r spec := by
  induction bs generalizing s with
  | nil => rfl
  | cons b bs ih =>
    have hrest := ih h.2
    rw [acceptedFills] at hrest ⊢
    rw [map_cons, accepted, if_pos h.1, flatMap_cons, hrest, flatMap_cons,
      map_append, Booking.fills_call]

theorem AcceptsAll.take {spec : BacktestSpec} (bs : List Booking) (h : AcceptsAll spec bs s) (n : ℕ) :
    AcceptsAll spec (bs.take n) s := by
  induction bs generalizing s n with
  | nil => rwa [take_nil]
  | cons b bs ih =>
    cases n with
    | zero => trivial
    | succ n => exact ⟨h.1, ih h.2 n⟩

/-- What costs take away: the fees and the slippage, exactly. -/
structure DragIsCost (zero spec : BacktestSpec) (z s : PortfolioLedger) : Prop where
  net : (z.cash.toRat - zero.cashDecimal.toRat) - (s.cash.toRat - spec.cashDecimal.toRat) =
    s.totalFeeQuote.toRat + s.totalSlippageQuote.toRat
  realized : z.realizedPnlQuote.toRat - s.realizedPnlQuote.toRat =
    s.totalFeeQuote.toRat + s.totalSlippageQuote.toRat

theorem sum_drag {zero spec : BacktestSpec} (hfee : zero.feeBpsDecimal ≈ 0)
    (hslip : zero.slippageBpsDecimal ≈ 0) (rs : List FillReference) :
    ((rs.map fun r => costFill r zero).map fun f => f.cashDelta.toRat).sum =
      ((rs.map fun r => costFill r spec).map fun f => f.cashDelta.toRat).sum +
      (((rs.map fun r => costFill r spec).map fun f => f.feeQuote.toRat).sum +
        ((rs.map fun r => costFill r spec).map fun f => f.slippageQuote.toRat).sum) := by
  obtain ⟨-, -, -, s0, -, -⟩ := spec.facts
  rw [equiv_def, toRat_zero] at hfee hslip
  induction rs with
  | nil => simp
  | cons r rs ih =>
    obtain ⟨zcash, -, -, -⟩ := (usesPolicy_costFill r zero).toRat
    obtain ⟨cash, fee, slip, -⟩ := (usesPolicy_costFill r spec).toRat
    have hdrag : (costFill r zero).cashDelta.toRat = (costFill r spec).cashDelta.toRat +
        ((costFill r spec).feeQuote.toRat + (costFill r spec).slippageQuote.toRat) := by
      rw [zcash, cash, fee, slip]
      change (exactFill r zero.feeBpsDecimal.toRat zero.slippageBpsDecimal.toRat).cashDelta = _
      rw [hfee, hslip]
      exact exactFill_zero r s0
    simp only [map_cons, sum_cons, hdrag, ih]
    ring

/-- **Cost monotonicity.** -/
theorem cost_monotonicity (h : Cheaper cheap costly) (bs : List Booking)
    (hacc : AcceptsAll costly bs (init costly)) :
    -- the cheaper ledger accepts the sequence too, and is never behind in cash
    AcceptsAll cheap bs (init cheap) ∧
    (∀ n, (ledgerAfter costly (bs.take n)).cash ≤ (ledgerAfter cheap (bs.take n)).cash) ∧
    -- against a policy without costs, a flat ledger has lost its fees and its slippage
    (cheap.feeBpsDecimal ≈ 0 → cheap.slippageBpsDecimal ≈ 0 → ∀ n,
      ((bs.take n).flatMap Booking.references).length ≤ exactFillLimit →
      ¬ (ledgerAfter costly (bs.take n)).hasPosition →
      DragIsCost cheap costly (ledgerAfter cheap (bs.take n)) (ledgerAfter costly (bs.take n))) := by
  obtain ⟨hcheap, hruns⟩ := (ahead_init h).run h bs hacc
  refine ⟨hcheap, fun n => (hruns n).cash, ?_⟩
  intro hfee hslip n hlen hflat
  have hquantity : (ledgerAfter cheap (bs.take n)).assetQuantity =
      (ledgerAfter costly (bs.take n)).assetQuantity := (hruns n).quantity
  have hflat' : ¬ (ledgerAfter cheap (bs.take n)).hasPosition := by
    rw [hasPosition, hquantity]
    exact hflat
  have hconserves : ∀ spec, AcceptsAll spec bs (init spec) →
      Conserves spec (((bs.take n).flatMap Booking.references).map fun r => costFill r spec)
        (ledgerAfter spec (bs.take n)) := by
    intro spec hall
    have hfills := acceptedFills_of_acceptsAll (bs.take n) (hall.take bs n)
    have hlaw := (ledger_conservation spec ((bs.take n).map (Booking.call spec))).2
    rw [hfills, List.length_map] at hlaw
    exact hlaw hlen
  have hz := hconserves cheap hcheap
  have hs := hconserves costly hacc
  have hdrag := @sum_drag cheap costly hfee hslip ((bs.take n).flatMap Booking.references)
  have hcash := equiv_def.mp h.cash
  constructor
  · rw [hz.cash, hs.cash, hs.fees, hs.slippage, hdrag]
    ring
  · have hzflat := hz.flat hflat'
    have hsflat := hs.flat hflat
    rw [hz.cash, hdrag] at hzflat
    rw [hs.cash] at hsflat
    rw [hs.fees, hs.slippage]
    linarith

/-- The specification of the round trips, without costs. -/
def freeSpec : BacktestSpec where
  symbol := .btcusdt
  startTimeMs := 0
  endTimeMs := 3600000
  feeBps := "0"
  slippageBps := "0"
  valid := by decide

theorem cheaper_freeSpec : Cheaper freeSpec roundTripSpec := by
  constructor <;> decide +kernel

/-- One round trip, with and without costs. -/
theorem cost_monotonicity_round_trip : DragIsCost freeSpec roundTripSpec
    (ledgerAfter freeSpec [.apply (enterReference 0), .apply (exitReference 0)])
    (ledgerAfter roundTripSpec [.apply (enterReference 0), .apply (exitReference 0)]) := by
  have hacc : AcceptsAll roundTripSpec [.apply (enterReference 0), .apply (exitReference 0)]
      (init roundTripSpec) := ⟨by decide +kernel, by decide +kernel, trivial⟩
  exact (cost_monotonicity cheaper_freeSpec _ hacc).2.2 (by decide +kernel) (by decide +kernel) 2
    (by decide) (by decide +kernel)

/-- A running total is exact as long as the amounts leave room. -/
theorem total_eq_sum {total : PortfolioLedger → Decimal} {amount : CostedFill → Decimal}
    (hstep : ∀ s f, total (s.posted f) = add decimalPrecision (total s) (amount f))
    (spec : BacktestSpec) {g b : ℕ} {bound : ℚ} (hroom : g + b ≤ decimalPrecision)
    (hgrid : OnGrid g (total (init spec)).toRat) (calls : List Call)
    (hamount : ∀ f ∈ acceptedFills calls (init spec),
      OnGrid g (amount f).toRat ∧ |(amount f).toRat| ≤ bound)
    (hlen : |(total (init spec)).toRat| + (acceptedFills calls (init spec)).length * bound <
      10 ^ b) :
    (total (run Call.method calls (init spec))).toRat = (total (init spec)).toRat +
      ((acceptedFills calls (init spec)).map fun f => (amount f).toRat).sum := by
  refine run_induction (I := fun fs s => (∀ f ∈ fs, OnGrid g (amount f).toRat ∧
      |(amount f).toRat| ≤ bound) → |(total (init spec)).toRat| + fs.length * bound < 10 ^ b →
      (total s).toRat = (total (init spec)).toRat + (fs.map fun f => (amount f).toRat).sum)
    ?_ ?_ calls hamount hlen
  · intro _ _
    simp
  · intro fs s f ih _ hall hroomy
    have hlast := hall f (by simp)
    have hnonneg : 0 ≤ bound := (abs_nonneg _).trans hlast.2
    have hsum : |((fs ++ [f]).map fun f => (amount f).toRat).sum| ≤ (fs ++ [f]).length * bound := by
      have hle := abs_sum_le (l := (fs ++ [f]).map fun f => (amount f).toRat) (b := bound)
        (by intro q hq; obtain ⟨h, hh, rfl⟩ := mem_map.mp hq; exact (hall h hh).2)
      rwa [length_map] at hle
    have hfits : Fits g b ((total (init spec)).toRat +
        ((fs ++ [f]).map fun f => (amount f).toRat).sum) := by
      refine ⟨hgrid.add (OnGrid.list_sum ?_), ?_⟩
      · intro q hq
        obtain ⟨h, hh, rfl⟩ := mem_map.mp hq
        exact (hall h hh).1
      · exact ((abs_add_le _ _).trans (add_le_add_right hsum _)).trans_lt hroomy
    have hprev := ih (fun h hh => hall h (mem_append_left _ hh)) (by
      rw [length_append, length_singleton] at hroomy
      push_cast at hroomy
      linarith)
    rw [map_append, sum_append, map_singleton, sum_singleton, ← add_assoc,
      ← hprev] at hfits ⊢
    rw [hstep]
    exact toRat_add (by decide) (hfits.representable hroom)

def tripBookings (n : ℕ) : List Booking :=
  (List.range n).flatMap fun k => [.apply (enterReference k), .apply (exitReference k)]

theorem call_tripBookings (n : ℕ) :
    (tripBookings n).map (Booking.call roundTripSpec) = roundTrips n := by
  rw [tripBookings, map_flatMap]
  rfl

theorem fills_tripBookings (n : ℕ) :
    ((tripBookings n).flatMap Booking.references).map (fun r => costFill r roundTripSpec) =
      tripFills n := by
  rw [tripBookings, flatMap_assoc, map_flatMap]
  rfl

theorem length_tripFills (n : ℕ) : (tripFills n).length = 2 * n := by
  induction n with
  | zero => rfl
  | succ n ih =>
    rw [tripFills_succ, length_append, ih]
    rfl

theorem length_acceptedFills_le (spec : BacktestSpec) (bs : List Booking) (s : PortfolioLedger) :
    (acceptedFills (bs.map (Booking.call spec)) s).length ≤
      (bs.flatMap Booking.references).length := by
  induction bs generalizing s with
  | nil => exact le_rfl
  | cons b bs ih =>
    have hrest := ih ((b.call spec).method.after s)
    rw [acceptedFills] at hrest ⊢
    rw [map_cons, accepted]
    split_ifs
    · rw [flatMap_cons, flatMap_cons, length_append, length_append,
        Booking.fills_call, length_map]
      omega
    · rw [flatMap_cons, length_append]
      omega

theorem acceptsAll_of_length {spec : BacktestSpec} (bs : List Booking)
    (hfull : ∀ b ∈ bs, b.references ≠ [])
    (h : (acceptedFills (bs.map (Booking.call spec)) s).length =
      (bs.flatMap Booking.references).length) : AcceptsAll spec bs s := by
  induction bs generalizing s with
  | nil => trivial
  | cons b bs ih =>
    have hrest := length_acceptedFills_le spec bs ((b.call spec).method.after s)
    have hpos := length_pos_iff.mpr (hfull b mem_cons_self)
    rw [acceptedFills] at h hrest
    rw [map_cons, accepted, flatMap_cons, length_append] at h
    split_ifs at h with hret
    · rw [flatMap_cons, length_append, Booking.fills_call, length_map] at h
      refine ⟨hret, ih (fun c hc => hfull c (mem_cons_of_mem _ hc)) ?_⟩
      rw [acceptedFills]
      omega
    · omega

theorem abs_trip_costs {f : CostedFill} (h : f.UsesPolicy roundTripSpec) :
    |f.feeQuote.toRat| ≤ 10 ^ 40 ∧ |f.slippageQuote.toRat| ≤ 10 ^ 40 := by
  have hrate : (ofText finestRate).toRat = 1 / 10 ^ 40 := toRat_texts.2.1
  have hfee : f.feeBps.toRat = 1 / 10 ^ 40 := (equiv_def.mp h.1).trans hrate
  have hslip : f.slippageBps.toRat = 1 / 10 ^ 40 := (equiv_def.mp h.2).trans hrate
  obtain ⟨-, fee, slip, -⟩ := h.toRat
  rw [fee, slip, CostedFill.exact, hfee, hslip]
  obtain ⟨h1, h2⟩ := exactFill_costs_le f.reference (by positivity : (0 : ℚ) ≤ 1 / 10 ^ 40)
    (by positivity : (0 : ℚ) ≤ 1 / 10 ^ 40) (by norm_num)
  exact ⟨h1.trans (by norm_num), h2.trans (by norm_num)⟩

theorem free_trip_cash {f : CostedFill} (h : f.UsesPolicy freeSpec) :
    OnGrid 80 f.cashDelta.toRat ∧ |f.cashDelta.toRat| ≤ 121 / 100 * 10 ^ 80 := by
  have hzero : (ofText "0").toRat = 0 := by
    have htext : ofText "0" = ⟨false, 0, 0⟩ := by decide +kernel
    rw [htext]
    exact toRat_zero
  have hfee : f.feeBps.toRat = 0 := (equiv_def.mp h.1).trans hzero
  have hslip : f.slippageBps.toRat = 0 := (equiv_def.mp h.2).trans hzero
  obtain ⟨hq, hp⟩ := fits_reference f.reference
  have hgross := (hq.mul hp).onGrid
  refine ⟨?_, ?_⟩
  · rw [h.toRat.1, CostedFill.exact, hfee, hslip]
    unfold exactFill slippedPrice
    dsimp only
    rw [zero_div, add_zero, sub_zero, mul_one, ite_self, mul_zero, sub_zero]
    split_ifs
    · rw [neg_one_mul]
      exact hgross.neg
    · rw [one_mul]
      exact hgross
  · rw [h.toRat.1]
    exact h.abs_le.1

/-- Beyond the limit, the costs of the long run do not add up. -/
theorem not_cost_monotonicity_unbounded :
    ¬ ∀ (cheap costly : BacktestSpec) (bs : List Booking), Cheaper cheap costly →
      cheap.feeBpsDecimal ≈ 0 → cheap.slippageBpsDecimal ≈ 0 →
      AcceptsAll costly bs (init costly) → ¬ (ledgerAfter costly bs).hasPosition →
      DragIsCost cheap costly (ledgerAfter cheap bs) (ledgerAfter costly bs) := by
  intro law
  apply not_tripCash
  intro n hn hfs hflat
  have hcalls := call_tripBookings n
  have hfills := fills_tripBookings n
  have hacc : AcceptsAll roundTripSpec (tripBookings n) (init roundTripSpec) := by
    apply acceptsAll_of_length
    · intro b hb
      obtain ⟨k, -, hk⟩ := List.mem_flatMap.mp hb
      rw [List.mem_cons, List.mem_singleton] at hk
      rcases hk with rfl | rfl
      · exact List.cons_ne_nil _ _
      · exact List.cons_ne_nil _ _
    · rw [hcalls, hfs, ← hfills, List.length_map]
  have hfree := (cost_monotonicity cheaper_freeSpec (tripBookings n) hacc).1
  have hdrag := law freeSpec roundTripSpec (tripBookings n) cheaper_freeSpec (by decide +kernel)
    (by decide +kernel) hacc (by rw [ledgerAfter, hcalls]; exact hflat)
  have hfreeFills := acceptedFills_of_acceptsAll (tripBookings n) hfree
  have hlength : (tripFills n).length ≤ 400000002 := by
    rw [length_tripFills]
    omega
  have hroom : ∀ c bound limit : ℚ, 0 ≤ bound → c + 400000002 * bound < limit →
      c + (tripFills n).length * bound < limit := by
    intro c bound limit h0 h
    have hcast : ((tripFills n).length : ℚ) ≤ 400000002 := by exact_mod_cast hlength
    have hmul := mul_le_mul_of_nonneg_right hcast h0
    linarith
  have hcount : (acceptedFills ((tripBookings n).map (Booking.call freeSpec)) (init freeSpec)).length =
      (tripFills n).length := by
    rw [hfreeFills, ← hfills, List.length_map, List.length_map]
  have hstart : (init freeSpec).cash.toRat = 10000 := toRat_cash_roundTripSpec
  have hpolicy := (sound_run roundTripSpec (roundTrips n)).policy
  have hcosts : ∀ f ∈ acceptedFills (roundTrips n) (init roundTripSpec),
      (OnGrid 168 f.feeQuote.toRat ∧ |f.feeQuote.toRat| ≤ 10 ^ 40) ∧
        OnGrid 168 f.slippageQuote.toRat ∧ |f.slippageQuote.toRat| ≤ 10 ^ 40 := by
    intro f hf
    obtain ⟨-, fee, slip, -⟩ := (hpolicy f hf).toRat
    obtain ⟨-, hfee, hslip⟩ := (hpolicy f hf).onGrid
    rw [← fee] at hfee
    rw [← slip] at hslip
    exact ⟨⟨hfee, (abs_trip_costs (hpolicy f hf)).1⟩, hslip, (abs_trip_costs (hpolicy f hf)).2⟩
  -- the three totals are exact, so that the difference would be
  have hz := @total_eq_sum (fun s => s.cash) (fun f => f.cashDelta) posted_cash freeSpec 80 100
    (121 / 100 * 10 ^ 80) (by decide) (freeSpec.facts.2.1.2.2.mono (by norm_num))
    ((tripBookings n).map (Booking.call freeSpec))
    (by
      intro f hf
      rw [hfreeFills] at hf
      obtain ⟨r, -, rfl⟩ := List.mem_map.mp hf
      exact free_trip_cash (usesPolicy_costFill r freeSpec))
    (by rw [hcount, hstart]; exact hroom _ _ _ (by positivity) (by norm_num))
  have hfees := @total_eq_sum (fun s => s.totalFeeQuote) (fun f => f.feeQuote) (fun _ _ => rfl)
    roundTripSpec 168 60 (10 ^ 40) (by decide) (by rw [init, toRat_zero]; exact onGrid_zero _)
    (roundTrips n) (fun f hf => (hcosts f hf).1)
    (by rw [hfs]; exact hroom _ _ _ (by positivity) (by norm_num [init]))
  have hslips := @total_eq_sum (fun s => s.totalSlippageQuote) (fun f => f.slippageQuote)
    (fun _ _ => rfl) roundTripSpec 168 60 (10 ^ 40) (by decide)
    (by rw [init, toRat_zero]; exact onGrid_zero _) (roundTrips n) (fun f hf => (hcosts f hf).2)
    (by rw [hfs]; exact hroom _ _ _ (by positivity) (by norm_num [init]))
  have hsum := @sum_drag freeSpec roundTripSpec (by decide +kernel) (by decide +kernel)
    ((tripBookings n).flatMap Booking.references)
  rw [hfills, sum_tripFills] at hsum
  rw [hfreeFills, hsum, hstart] at hz
  rw [hfs] at hfees hslips
  have hnet := hdrag.net
  have hfreeCash : freeSpec.cashDecimal.toRat = 10000 := toRat_cash_roundTripSpec
  have hnoFee : (init roundTripSpec).totalFeeQuote.toRat = 0 := toRat_zero
  have hnoSlippage : (init roundTripSpec).totalSlippageQuote.toRat = 0 := toRat_zero
  rw [ledgerAfter, ledgerAfter, hcalls, hz, hfees, hslips, hfreeCash, toRat_cash_roundTripSpec,
    hnoFee, hnoSlippage] at hnet
  rw [tripCash]
  linarith

end PortfolioLedger

end TradingLab
