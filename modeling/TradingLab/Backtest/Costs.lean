import TradingLab.Backtest.Intents
import TradingLab.Decimal.Quotient

/-!
# Costed fills

Slippage moves the execution price against the position and the fee is charged
on the gross amount. A costed fill stores the computed values and its constructor
recomputes them, so a costed fill is arithmetic that has been checked.

With rates of at most forty fraction digits every intermediate value fits the
256 digits of the context. Costing is then exact, and the second half of this
module states it over the rationals.
-/

namespace TradingLab

open Decimal

def basisPoints : Decimal := 10000
def decimalPrecision : ℕ := 256

theorem decimalPrecision_pos : 0 < decimalPrecision := by decide

structure CostModelError where
  message : String
deriving Repr, DecidableEq

def _rate (value : Decimal) (field : String) : Except CostModelError Decimal := do
  raiseIf (value < 0 ∨ maxCostBps < value) ⟨field ++ " is invalid"⟩
  return value

structure Components where
  executionPrice : Decimal
  grossQuote : Decimal
  feeQuote : Decimal
  slippageQuote : Decimal
  cashDelta : Decimal
  assetDelta : Decimal
deriving Repr, DecidableEq

/-- Equality of the tuples: the numbers agree, whatever their exponents. -/
structure Components.Same (a b : Components) : Prop where
  executionPrice : a.executionPrice ≈ b.executionPrice
  grossQuote : a.grossQuote ≈ b.grossQuote
  feeQuote : a.feeQuote ≈ b.feeQuote
  slippageQuote : a.slippageQuote ≈ b.slippageQuote
  cashDelta : a.cashDelta ≈ b.cashDelta
  assetDelta : a.assetDelta ≈ b.assetDelta

instance (a b : Components) : Decidable (a.Same b) :=
  decidable_of_iff (a.executionPrice ≈ b.executionPrice ∧ a.grossQuote ≈ b.grossQuote ∧
      a.feeQuote ≈ b.feeQuote ∧ a.slippageQuote ≈ b.slippageQuote ∧
      a.cashDelta ≈ b.cashDelta ∧ a.assetDelta ≈ b.assetDelta)
    ⟨fun ⟨h1, h2, h3, h4, h5, h6⟩ => ⟨h1, h2, h3, h4, h5, h6⟩,
      fun ⟨h1, h2, h3, h4, h5, h6⟩ => ⟨h1, h2, h3, h4, h5, h6⟩⟩

/-- The computation of `_components` once both rates are accepted. -/
def costed (reference : FillReference) (feeBps slippageBps : Decimal) : Components :=
  let quantity := reference.quantityDecimal
  let price := reference.priceDecimal
  let slipRate := quotient decimalPrecision slippageBps basisPoints
  let feeRate := quotient decimalPrecision feeBps basisPoints
  let enter := reference.action = .enterLong
  let executionPrice :=
    if enter then mul decimalPrecision price (add decimalPrecision 1 slipRate)
    else mul decimalPrecision price (sub decimalPrecision 1 slipRate)
  let assetDelta := if enter then quantity else neg decimalPrecision quantity
  let direction : Decimal := if enter then ⟨true, 1, 0⟩ else 1
  let grossQuote := mul decimalPrecision quantity executionPrice
  let feeQuote := mul decimalPrecision grossQuote feeRate
  let slippageQuote :=
    mul decimalPrecision quantity
      (absolute decimalPrecision (sub decimalPrecision executionPrice price))
  let cashDelta := sub decimalPrecision (mul decimalPrecision direction grossQuote) feeQuote
  ⟨executionPrice, grossQuote, feeQuote, slippageQuote, cashDelta, assetDelta⟩

def _components (reference : FillReference) (feeBps slippageBps : Decimal) :
    Except CostModelError Components := do
  let feeBps ← _rate feeBps "fee_bps"
  let slippageBps ← _rate slippageBps "slippage_bps"
  return costed reference feeBps slippageBps

namespace CostedFill

structure Fields extends Components where
  reference : FillReference
  feeBps : Decimal
  slippageBps : Decimal
deriving DecidableEq

def Fields.postInit (f : Fields) : Except CostModelError Unit := do
  let expected ← _components f.reference f.feeBps f.slippageBps
  raiseIf (¬ f.toComponents.Same expected) ⟨"Costed fill arithmetic is inconsistent"⟩

end CostedFill

structure CostedFill extends CostedFill.Fields where
  valid : toFields.postInit = .ok ()
deriving DecidableEq

namespace CostedFill

/-- Equality of two costed fills: same reference and the same numbers. -/
structure Same (f g : CostedFill) : Prop where
  reference : f.reference = g.reference
  feeBps : f.feeBps ≈ g.feeBps
  slippageBps : f.slippageBps ≈ g.slippageBps
  components : f.toComponents.Same g.toComponents

instance (f g : CostedFill) : Decidable (f.Same g) :=
  decidable_of_iff (f.reference = g.reference ∧ f.feeBps ≈ g.feeBps ∧
      f.slippageBps ≈ g.slippageBps ∧ f.toComponents.Same g.toComponents)
    ⟨fun ⟨h1, h2, h3, h4⟩ => ⟨h1, h2, h3, h4⟩, fun ⟨h1, h2, h3, h4⟩ => ⟨h1, h2, h3, h4⟩⟩

/-- The property `total_cost_quote`. -/
def totalCostQuote (f : CostedFill) : Decimal := add decimalPrecision f.feeQuote f.slippageQuote

theorem facts (f : CostedFill) :
    (0 ≤ f.feeBps.toRat ∧ f.feeBps.toRat ≤ 1000) ∧
    (0 ≤ f.slippageBps.toRat ∧ f.slippageBps.toRat ≤ 1000) ∧
    f.toComponents.Same (costed f.reference f.feeBps f.slippageBps) := by
  have h := f.valid
  unfold Fields.postInit _components _rate at h
  simp only [bind_eq_ok, raiseIf_eq_ok, exists_const, pure, Except.pure, Except.ok.injEq, not_or, lt_def, toRat_zero, not_lt, toRat_maxCostBps, not_not] at h
  obtain ⟨c, ⟨a, ⟨hfee, rfl⟩, b, ⟨hslip, rfl⟩, rfl⟩, hsame⟩ := h
  exact ⟨hfee, hslip, hsame⟩

end CostedFill

theorem Components.Same.refl (c : Components) : c.Same c := ⟨rfl, rfl, rfl, rfl, rfl, rfl⟩

theorem postInit_costed {r : FillReference} {feeBps slippageBps : Decimal} {c : Components}
    (h : _components r feeBps slippageBps = .ok c) :
    CostedFill.Fields.postInit ⟨c, r, feeBps, slippageBps⟩ = .ok () := by
  unfold CostedFill.Fields.postInit
  dsimp only
  rw [h]
  exact raiseIf_neg (not_not.mpr (Components.Same.refl c))

/-- Cost a fill under the specification's own policy. -/
def applyCosts (reference : FillReference) (spec : BacktestSpec) :
    Except CostModelError CostedFill := do
  raiseIf (reference.symbol ≠ spec.symbol) ⟨"Fill and backtest symbols differ"⟩
  match h : _components reference spec.feeBpsDecimal spec.slippageBpsDecimal with
  | .ok values =>
      return ⟨⟨values, reference, spec.feeBpsDecimal, spec.slippageBpsDecimal⟩, postInit_costed h⟩
  | .error e => .error e

/-- The price a fill executes at: slippage is always adverse. -/
def slippedPrice (action : IntentAction) (price slip : ℚ) : ℚ :=
  if action = .enterLong then price * (1 + slip) else price * (1 - slip)

theorem slippedPrice_bounds (action : IntentAction) {price slip : ℚ} (hp : 0 ≤ price)
    (h0 : 0 ≤ slip) (h1 : slip ≤ 1 / 10) :
    0 ≤ slippedPrice action price slip ∧ slippedPrice action price slip ≤ price * (11 / 10) := by
  unfold slippedPrice
  split_ifs
  · constructor <;> nlinarith
  · constructor <;> nlinarith

/-- What a fill does to the ledger, exactly. -/
structure ExactFill where
  cashDelta : ℚ
  feeQuote : ℚ
  slippageQuote : ℚ
  assetDelta : ℚ

def exactFill (r : FillReference) (feeBps slippageBps : ℚ) : ExactFill :=
  let quantity := r.quantityDecimal.toRat
  let price := r.priceDecimal.toRat
  let executionPrice := slippedPrice r.action price (slippageBps / 10000)
  let grossQuote := quantity * executionPrice
  let feeQuote := grossQuote * (feeBps / 10000)
  let direction : ℚ := if r.action = .enterLong then -1 else 1
  ⟨direction * grossQuote - feeQuote, feeQuote, quantity * |executionPrice - price|,
    if r.action = .enterLong then quantity else -quantity⟩

theorem abs_slippedPrice_sub (action : IntentAction) {price slip : ℚ} (hp : 0 ≤ price)
    (h : 0 ≤ slip) : |slippedPrice action price slip - price| = price * slip := by
  have hmove : 0 ≤ price * slip := mul_nonneg hp h
  unfold slippedPrice
  split_ifs
  · rw [← abs_of_nonneg hmove]
    congr 1
    ring
  · rw [← abs_of_nonneg hmove, ← abs_neg]
    congr 1
    ring

theorem exactFill_zero (r : FillReference) {fee slip : ℚ} (s0 : 0 ≤ slip) :
    (exactFill r 0 0).cashDelta = (exactFill r fee slip).cashDelta +
      ((exactFill r fee slip).feeQuote + (exactFill r fee slip).slippageQuote) := by
  obtain ⟨-, -, -, p0⟩ := r.facts
  have hmove := abs_slippedPrice_sub r.action p0.le (by positivity : 0 ≤ slip / 10000)
  unfold exactFill
  dsimp only
  rw [hmove]
  unfold slippedPrice
  split_ifs
  · ring
  · ring

theorem fits_rate {q : ℚ} (h : OnGrid 40 q) (h0 : 0 ≤ q) (h1 : q ≤ 1000) :
    Fits 44 0 (q / 10000) := by
  constructor
  · obtain ⟨n, hn⟩ := h
    exact ⟨n, by rw [← hn]; ring⟩
  · rw [abs_of_nonneg (by positivity)]
    linarith

theorem fits_reference (r : FillReference) :
    Fits 40 40 r.quantityDecimal.toRat ∧ Fits 40 40 r.priceDecimal.toRat := by
  obtain ⟨-, ⟨pq, -⟩, pp, -⟩ := r.facts
  obtain ⟨-, -, q0, q1⟩ := decimalPattern_bounds pq
  obtain ⟨-, -, p0, p1⟩ := decimalPattern_bounds pp
  exact ⟨⟨onGrid_decimalPattern pq, by rwa [FillReference.quantityDecimal, abs_of_nonneg q0]⟩,
    ⟨onGrid_decimalPattern pp, by rwa [FillReference.priceDecimal, abs_of_nonneg p0]⟩⟩

theorem fits_one_add {q : ℚ} (h : Fits 44 0 q) : Fits 44 1 (1 + q) := by
  have h1 : Fits 44 1 1 := ⟨onGrid_one 44, by norm_num⟩
  refine ⟨h1.onGrid.add h.onGrid, ?_⟩
  have := h.lt
  rw [pow_zero, abs_lt] at this
  rw [abs_lt]
  constructor <;> linarith

theorem fits_slippedPrice (r : FillReference) {slip : ℚ} (h : Fits 44 0 slip) :
    Fits 84 41 (slippedPrice r.action r.priceDecimal.toRat slip) := by
  unfold slippedPrice
  split_ifs
  · exact (fits_reference r).2.mul (fits_one_add h)
  · rw [sub_eq_add_neg]
    exact (fits_reference r).2.mul (fits_one_add h.neg)

section Exact
variable (r : FillReference) {feeBps slippageBps : Decimal}

theorem toRat_rate {rate : Decimal} (h : OnGrid 40 rate.toRat) (h0 : 0 ≤ rate.toRat)
    (h1 : rate.toRat ≤ 1000) :
    (quotient decimalPrecision rate basisPoints).toRat = rate.toRat / 10000 := by
  have hb : basisPoints.toRat = 10000 := by
    rw [show basisPoints = OfNat.ofNat 10000 from rfl, toRat_ofNat]
    norm_num
  have hq := (fits_rate h h0 h1).representable (by decide : 44 + 0 ≤ decimalPrecision)
  rw [← hb] at hq ⊢
  exact toRat_quotient (by decide) (by decide) hq

theorem toRat_factors (hs : OnGrid 40 slippageBps.toRat) (s0 : 0 ≤ slippageBps.toRat)
    (s1 : slippageBps.toRat ≤ 1000) :
    (add decimalPrecision 1 (quotient decimalPrecision slippageBps basisPoints)).toRat =
        1 + slippageBps.toRat / 10000 ∧
      (sub decimalPrecision 1 (quotient decimalPrecision slippageBps basisPoints)).toRat =
        1 - slippageBps.toRat / 10000 := by
  have hp : 0 < decimalPrecision := by decide
  have hrate := toRat_rate hs s0 s1
  have hfit := fits_rate hs s0 s1
  constructor
  · have := (fits_one_add hfit).representable (by decide : 44 + 1 ≤ decimalPrecision)
    rw [toRat_add hp (by rwa [toRat_one, hrate]), toRat_one, hrate]
  · have := (fits_one_add hfit.neg).representable (by decide : 44 + 1 ≤ decimalPrecision)
    rw [← sub_eq_add_neg] at this
    rw [toRat_sub hp (by rwa [toRat_one, hrate]), toRat_one, hrate]

theorem toRat_executionPrice (feeBps : Decimal) (hs : OnGrid 40 slippageBps.toRat) (s0 : 0 ≤ slippageBps.toRat)
    (s1 : slippageBps.toRat ≤ 1000) :
    (costed r feeBps slippageBps).executionPrice.toRat =
      slippedPrice r.action r.priceDecimal.toRat (slippageBps.toRat / 10000) := by
  have hp : 0 < decimalPrecision := by decide
  have hexec := fits_slippedPrice r (fits_rate hs s0 s1)
  obtain ⟨hadd, hsub⟩ := toRat_factors hs s0 s1
  unfold costed slippedPrice at *
  dsimp only
  split_ifs with h
  · rw [if_pos h] at hexec
    rw [toRat_mul hp, hadd]
    rw [hadd]
    exact hexec.representable (by decide)
  · rw [if_neg h] at hexec
    rw [toRat_mul hp, hsub]
    rw [hsub]
    exact hexec.representable (by decide)

/-- The gross amount, the fee and the slippage keep within 168 fraction digits. -/
theorem exactFill_fits (hf : OnGrid 40 feeBps.toRat) (f0 : 0 ≤ feeBps.toRat)
    (f1 : feeBps.toRat ≤ 1000) (hs : OnGrid 40 slippageBps.toRat) (s0 : 0 ≤ slippageBps.toRat)
    (s1 : slippageBps.toRat ≤ 1000) :
    let e := exactFill r feeBps.toRat slippageBps.toRat
    let price := slippedPrice r.action r.priceDecimal.toRat (slippageBps.toRat / 10000)
    Fits 124 81 (r.quantityDecimal.toRat * price) ∧ Fits 168 81 e.feeQuote ∧
      Fits 84 42 (price - r.priceDecimal.toRat) ∧ Fits 124 82 e.slippageQuote ∧
      Fits 168 82 e.cashDelta := by
  have hprice := fits_slippedPrice r (fits_rate hs s0 s1)
  have hgross := (fits_reference r).1.mul hprice
  have hfee := hgross.mul (fits_rate hf f0 f1)
  have hmove := hprice.sub ((fits_reference r).2.mono (by norm_num : 40 ≤ 84) (by norm_num : 40 ≤ 41))
  have hslip := (fits_reference r).1.mul hmove.abs
  refine ⟨hgross, hfee, hmove, hslip, ?_⟩
  have hwide := hgross.mono (by norm_num : 124 ≤ 168) (le_refl 81)
  unfold exactFill
  dsimp only
  split_ifs
  · rw [neg_one_mul]
    exact hwide.neg.sub hfee
  · rw [one_mul]
    exact hwide.sub hfee

theorem costed_grossQuote (f s : Decimal) : (costed r f s).grossQuote =
    mul decimalPrecision r.quantityDecimal (costed r f s).executionPrice := by
  simp only [costed]

theorem costed_feeQuote (f s : Decimal) : (costed r f s).feeQuote =
    mul decimalPrecision (costed r f s).grossQuote (quotient decimalPrecision f basisPoints) := by
  simp only [costed]

theorem costed_slippageQuote (f s : Decimal) : (costed r f s).slippageQuote =
    mul decimalPrecision r.quantityDecimal (absolute decimalPrecision
      (sub decimalPrecision (costed r f s).executionPrice r.priceDecimal)) := by
  simp only [costed]

theorem costed_cashDelta (f s : Decimal) : (costed r f s).cashDelta =
    sub decimalPrecision (mul decimalPrecision
      (if r.action = .enterLong then ⟨true, 1, 0⟩ else 1) (costed r f s).grossQuote)
      (costed r f s).feeQuote := by
  simp only [costed]

theorem costed_assetDelta (f s : Decimal) : (costed r f s).assetDelta =
    if r.action = .enterLong then r.quantityDecimal else neg decimalPrecision r.quantityDecimal := by
  simp only [costed]

theorem toRat_assetDelta (f s : Decimal) : (costed r f s).assetDelta.toRat =
    if r.action = .enterLong then r.quantityDecimal.toRat else -r.quantityDecimal.toRat := by
  unfold costed
  dsimp only
  split_ifs
  · rfl
  · exact toRat_neg (by decide) ((fits_reference r).1.representable (by decide))

theorem toRat_direction : (if r.action = .enterLong then (⟨true, 1, 0⟩ : Decimal) else 1).toRat =
    if r.action = .enterLong then -1 else 1 := by
  split_ifs
  · norm_num [toRat, int]
  · exact toRat_one

/-- No operation of costing rounds: each result is that of the rational numbers. -/
structure CostedExactly (feeBps slippageBps : Decimal) : Prop where
  slipRate : (quotient decimalPrecision slippageBps basisPoints).toRat = slippageBps.toRat / 10000
  feeRate : (quotient decimalPrecision feeBps basisPoints).toRat = feeBps.toRat / 10000
  raised : (add decimalPrecision 1 (quotient decimalPrecision slippageBps basisPoints)).toRat =
    1 + slippageBps.toRat / 10000
  lowered : (sub decimalPrecision 1 (quotient decimalPrecision slippageBps basisPoints)).toRat =
    1 - slippageBps.toRat / 10000
  executionPrice : (costed r feeBps slippageBps).executionPrice.toRat =
    slippedPrice r.action r.priceDecimal.toRat (slippageBps.toRat / 10000)
  grossQuote : (costed r feeBps slippageBps).grossQuote.toRat =
    r.quantityDecimal.toRat * slippedPrice r.action r.priceDecimal.toRat (slippageBps.toRat / 10000)
  feeQuote : (costed r feeBps slippageBps).feeQuote.toRat =
    (exactFill r feeBps.toRat slippageBps.toRat).feeQuote
  move : (sub decimalPrecision (costed r feeBps slippageBps).executionPrice r.priceDecimal).toRat =
    slippedPrice r.action r.priceDecimal.toRat (slippageBps.toRat / 10000) - r.priceDecimal.toRat
  distance : (absolute decimalPrecision (sub decimalPrecision
      (costed r feeBps slippageBps).executionPrice r.priceDecimal)).toRat =
    |slippedPrice r.action r.priceDecimal.toRat (slippageBps.toRat / 10000) - r.priceDecimal.toRat|
  slippageQuote : (costed r feeBps slippageBps).slippageQuote.toRat =
    (exactFill r feeBps.toRat slippageBps.toRat).slippageQuote
  directed : (mul decimalPrecision (if r.action = .enterLong then ⟨true, 1, 0⟩ else 1)
      (costed r feeBps slippageBps).grossQuote).toRat =
    (if r.action = .enterLong then -1 else 1) * (r.quantityDecimal.toRat *
      slippedPrice r.action r.priceDecimal.toRat (slippageBps.toRat / 10000))
  cashDelta : (costed r feeBps slippageBps).cashDelta.toRat =
    (exactFill r feeBps.toRat slippageBps.toRat).cashDelta
  assetDelta : (costed r feeBps slippageBps).assetDelta.toRat =
    (exactFill r feeBps.toRat slippageBps.toRat).assetDelta
  totalCostQuote : (add decimalPrecision (costed r feeBps slippageBps).feeQuote
      (costed r feeBps slippageBps).slippageQuote).toRat =
    (exactFill r feeBps.toRat slippageBps.toRat).feeQuote +
      (exactFill r feeBps.toRat slippageBps.toRat).slippageQuote

/-- Costing under rates of forty fraction digits does not round. -/
theorem costedExactly (hf : OnGrid 40 feeBps.toRat) (f0 : 0 ≤ feeBps.toRat)
    (f1 : feeBps.toRat ≤ 1000) (hs : OnGrid 40 slippageBps.toRat) (s0 : 0 ≤ slippageBps.toRat)
    (s1 : slippageBps.toRat ≤ 1000) : CostedExactly r feeBps slippageBps := by
  have hp : 0 < decimalPrecision := by decide
  obtain ⟨hgross, hfee, hmove, hslip, hcash⟩ := exactFill_fits r hf f0 f1 hs s0 s1
  have price := toRat_executionPrice r feeBps hs s0 s1
  have slipRate := toRat_rate hs s0 s1
  have feeRate := toRat_rate hf f0 f1
  have factors := toRat_factors hs s0 s1
  have direction := toRat_direction r
  have asset := toRat_assetDelta r feeBps slippageBps
  have gross := costed_grossQuote r feeBps slippageBps
  have fee := costed_feeQuote r feeBps slippageBps
  have slip := costed_slippageQuote r feeBps slippageBps
  have cash := costed_cashDelta r feeBps slippageBps
  have hgrossEq : (costed r feeBps slippageBps).grossQuote.toRat = r.quantityDecimal.toRat *
      slippedPrice r.action r.priceDecimal.toRat (slippageBps.toRat / 10000) := by
    rw [gross, ← price]
    exact toRat_mul hp (by rw [price]; exact hgross.representable (by decide))
  have hfeeEq : (costed r feeBps slippageBps).feeQuote.toRat =
      (exactFill r feeBps.toRat slippageBps.toRat).feeQuote := by
    have hexact : (exactFill r feeBps.toRat slippageBps.toRat).feeQuote = r.quantityDecimal.toRat *
        slippedPrice r.action r.priceDecimal.toRat (slippageBps.toRat / 10000) *
          (feeBps.toRat / 10000) := rfl
    rw [hexact] at hfee ⊢
    rw [fee, ← hgrossEq, ← feeRate]
    exact toRat_mul hp (by rw [hgrossEq, feeRate]; exact hfee.representable (by decide))
  have hmoveEq : (sub decimalPrecision (costed r feeBps slippageBps).executionPrice
      r.priceDecimal).toRat =
      slippedPrice r.action r.priceDecimal.toRat (slippageBps.toRat / 10000) -
        r.priceDecimal.toRat := by
    rw [← price]
    exact toRat_sub hp (by rw [price]; exact hmove.representable (by decide))
  have hdistance : (absolute decimalPrecision (sub decimalPrecision
        (costed r feeBps slippageBps).executionPrice r.priceDecimal)).toRat =
      |slippedPrice r.action r.priceDecimal.toRat (slippageBps.toRat / 10000) -
        r.priceDecimal.toRat| := by
    rw [← hmoveEq]
    exact toRat_absolute hp (by rw [hmoveEq]; exact hmove.abs.representable (by decide))
  have hslipEq : (costed r feeBps slippageBps).slippageQuote.toRat =
      (exactFill r feeBps.toRat slippageBps.toRat).slippageQuote := by
    have hexact : (exactFill r feeBps.toRat slippageBps.toRat).slippageQuote =
        r.quantityDecimal.toRat *
          |slippedPrice r.action r.priceDecimal.toRat (slippageBps.toRat / 10000) -
            r.priceDecimal.toRat| := rfl
    rw [hexact] at hslip ⊢
    rw [slip, ← hdistance]
    exact toRat_mul hp (by rw [hdistance]; exact hslip.representable (by decide))
  have hdirected : (mul decimalPrecision (if r.action = .enterLong then ⟨true, 1, 0⟩ else 1)
      (costed r feeBps slippageBps).grossQuote).toRat =
      (if r.action = .enterLong then -1 else 1) * (r.quantityDecimal.toRat *
        slippedPrice r.action r.priceDecimal.toRat (slippageBps.toRat / 10000)) := by
    rw [← direction, ← hgrossEq]
    apply toRat_mul hp
    rw [direction, hgrossEq]
    split_ifs
    · rw [neg_one_mul]
      exact hgross.neg.representable (by decide)
    · rw [one_mul]
      exact hgross.representable (by decide)
  have hcashEq : (costed r feeBps slippageBps).cashDelta.toRat =
      (exactFill r feeBps.toRat slippageBps.toRat).cashDelta := by
    have hexact : (exactFill r feeBps.toRat slippageBps.toRat).cashDelta =
        (if r.action = .enterLong then -1 else 1) * (r.quantityDecimal.toRat *
          slippedPrice r.action r.priceDecimal.toRat (slippageBps.toRat / 10000)) -
          (exactFill r feeBps.toRat slippageBps.toRat).feeQuote := rfl
    rw [hexact] at hcash ⊢
    rw [cash, ← hfeeEq, ← hdirected]
    exact toRat_sub hp (by rw [hdirected, hfeeEq]; exact hcash.representable (by decide))
  have htotal := (hfee.mono (le_refl 168) (by norm_num : 81 ≤ 82)).add
    (hslip.mono (by norm_num : 124 ≤ 168) (le_refl 82))
  exact {
    slipRate := slipRate
    feeRate := feeRate
    raised := factors.1
    lowered := factors.2
    executionPrice := price
    grossQuote := hgrossEq
    feeQuote := hfeeEq
    move := hmoveEq
    distance := hdistance
    slippageQuote := hslipEq
    directed := hdirected
    cashDelta := hcashEq
    assetDelta := asset
    totalCostQuote := by
      rw [← hfeeEq, ← hslipEq]
      exact toRat_add hp (by rw [hfeeEq, hslipEq]; exact htotal.representable (by decide)) }

theorem costed_exact (hf : OnGrid 40 feeBps.toRat) (f0 : 0 ≤ feeBps.toRat)
    (f1 : feeBps.toRat ≤ 1000) (hs : OnGrid 40 slippageBps.toRat) (s0 : 0 ≤ slippageBps.toRat)
    (s1 : slippageBps.toRat ≤ 1000) :
    let c := costed r feeBps slippageBps
    let e := exactFill r feeBps.toRat slippageBps.toRat
    c.cashDelta.toRat = e.cashDelta ∧ c.feeQuote.toRat = e.feeQuote ∧
      c.slippageQuote.toRat = e.slippageQuote ∧ c.assetDelta.toRat = e.assetDelta := by
  have h := costedExactly r hf f0 f1 hs s0 s1
  exact ⟨h.cashDelta, h.feeQuote, h.slippageQuote, h.assetDelta⟩

theorem exactFill_bounds (f0 : 0 ≤ feeBps.toRat) (f1 : feeBps.toRat ≤ 1000)
    (s0 : 0 ≤ slippageBps.toRat) (s1 : slippageBps.toRat ≤ 1000) :
    let e := exactFill r feeBps.toRat slippageBps.toRat
    |e.cashDelta| ≤ 121 / 100 * 10 ^ 80 ∧ |e.feeQuote| ≤ 121 / 100 * 10 ^ 80 ∧
      |e.slippageQuote| ≤ 121 / 100 * 10 ^ 80 := by
  obtain ⟨hq, hp⟩ := fits_reference r
  obtain ⟨-, ⟨-, q0⟩, -, p0⟩ := r.facts
  have q1 := (abs_lt.mp hq.lt).2
  have p1 := (abs_lt.mp hp.lt).2
  obtain ⟨x0, x1⟩ := slippedPrice_bounds r.action p0.le
    (by positivity : 0 ≤ slippageBps.toRat / 10000) (by linarith)
  have hmove : |slippedPrice r.action r.priceDecimal.toRat (slippageBps.toRat / 10000) -
      r.priceDecimal.toRat| ≤ 10 ^ 40 := by
    rw [abs_le]
    constructor <;> linarith
  unfold exactFill
  dsimp only
  generalize slippedPrice r.action r.priceDecimal.toRat (slippageBps.toRat / 10000) = x at *
  generalize r.quantityDecimal.toRat = q at *
  have hx : x ≤ 11 / 10 * 10 ^ 40 := by linarith
  have g0 : 0 ≤ q * x := mul_nonneg q0.le x0
  have g1 : q * x ≤ 11 / 10 * 10 ^ 80 := by
    calc q * x ≤ 10 ^ 40 * (11 / 10 * 10 ^ 40) := mul_le_mul q1.le hx x0 (by positivity)
      _ = 11 / 10 * 10 ^ 80 := by norm_num
  have h0 : 0 ≤ q * x * (feeBps.toRat / 10000) := mul_nonneg g0 (by positivity)
  have h1 : q * x * (feeBps.toRat / 10000) ≤ 11 / 100 * 10 ^ 80 := by
    calc q * x * (feeBps.toRat / 10000) ≤ 11 / 10 * 10 ^ 80 * (1 / 10) :=
          mul_le_mul g1 (by linarith) (by positivity) (by positivity)
      _ = 11 / 100 * 10 ^ 80 := by norm_num
  refine ⟨?_, ?_, ?_⟩
  · split_ifs <;> rw [abs_le] <;> constructor <;> linarith
  · rw [abs_of_nonneg h0]
    linarith
  · rw [abs_mul, abs_abs, abs_of_pos q0]
    calc q * |x - r.priceDecimal.toRat| ≤ 10 ^ 40 * 10 ^ 40 :=
          mul_le_mul q1.le hmove (abs_nonneg _) (by positivity)
      _ ≤ 121 / 100 * 10 ^ 80 := by norm_num

end Exact

namespace CostedFill

/-- A fill costed under the rates of the specification. -/
def UsesPolicy (f : CostedFill) (spec : BacktestSpec) : Prop :=
  f.feeBps ≈ spec.feeBpsDecimal ∧ f.slippageBps ≈ spec.slippageBpsDecimal

instance (f : CostedFill) (spec : BacktestSpec) : Decidable (f.UsesPolicy spec) := by
  unfold UsesPolicy
  infer_instance

def exact (f : CostedFill) : ExactFill :=
  exactFill f.reference f.feeBps.toRat f.slippageBps.toRat

variable {f : CostedFill} {spec : BacktestSpec}

theorem UsesPolicy.rates (h : f.UsesPolicy spec) :
    (OnGrid 40 f.feeBps.toRat ∧ 0 ≤ f.feeBps.toRat ∧ f.feeBps.toRat ≤ 1000) ∧
      OnGrid 40 f.slippageBps.toRat ∧ 0 ≤ f.slippageBps.toRat ∧ f.slippageBps.toRat ≤ 1000 := by
  obtain ⟨-, -, ⟨f0, f1, hf⟩, s0, s1, hs⟩ := spec.facts
  rw [equiv_def.mp h.1, equiv_def.mp h.2]
  exact ⟨⟨hf, f0, f1⟩, hs, s0, s1⟩

theorem UsesPolicy.toRat (h : f.UsesPolicy spec) :
    f.cashDelta.toRat = f.exact.cashDelta ∧ f.feeQuote.toRat = f.exact.feeQuote ∧
      f.slippageQuote.toRat = f.exact.slippageQuote ∧
      f.assetDelta.toRat = f.exact.assetDelta := by
  obtain ⟨⟨hf, f0, f1⟩, hs, s0, s1⟩ := h.rates
  obtain ⟨-, -, same⟩ := f.facts
  obtain ⟨cash, fee, slip, asset⟩ := costed_exact f.reference hf f0 f1 hs s0 s1
  exact ⟨(equiv_def.mp same.cashDelta).trans cash, (equiv_def.mp same.feeQuote).trans fee,
    (equiv_def.mp same.slippageQuote).trans slip, (equiv_def.mp same.assetDelta).trans asset⟩

theorem UsesPolicy.onGrid (h : f.UsesPolicy spec) :
    OnGrid 168 f.exact.cashDelta ∧ OnGrid 168 f.exact.feeQuote ∧
      OnGrid 168 f.exact.slippageQuote := by
  obtain ⟨⟨hf, f0, f1⟩, hs, s0, s1⟩ := h.rates
  obtain ⟨-, hfee, -, hslip, hcash⟩ := exactFill_fits f.reference hf f0 f1 hs s0 s1
  exact ⟨hcash.onGrid, hfee.onGrid, hslip.onGrid.mono (by norm_num)⟩

theorem UsesPolicy.abs_le (h : f.UsesPolicy spec) :
    |f.exact.cashDelta| ≤ 121 / 100 * 10 ^ 80 ∧ |f.exact.feeQuote| ≤ 121 / 100 * 10 ^ 80 ∧
      |f.exact.slippageQuote| ≤ 121 / 100 * 10 ^ 80 := by
  obtain ⟨⟨-, f0, f1⟩, -, s0, s1⟩ := h.rates
  exact exactFill_bounds f.reference f0 f1 s0 s1

end CostedFill

theorem _rate_eq_ok {d : Decimal} (h0 : 0 ≤ d.toRat) (h1 : d.toRat ≤ 1000) (field : String) :
    _rate d field = .ok d := by
  unfold _rate
  rw [raiseIf_neg]
  · rfl
  · rw [not_or, lt_def, lt_def, toRat_zero, toRat_maxCostBps, not_lt, not_lt]
    exact ⟨h0, h1⟩

theorem _components_policy (r : FillReference) (spec : BacktestSpec) :
    _components r spec.feeBpsDecimal spec.slippageBpsDecimal =
      .ok (costed r spec.feeBpsDecimal spec.slippageBpsDecimal) := by
  obtain ⟨-, -, ⟨f0, f1, -⟩, s0, s1, -⟩ := spec.facts
  unfold _components
  rw [_rate_eq_ok f0 f1, _rate_eq_ok s0 s1]
  rfl

/-- The fill a reference becomes under a specification. -/
def costFill (r : FillReference) (spec : BacktestSpec) : CostedFill :=
  ⟨⟨_, r, spec.feeBpsDecimal, spec.slippageBpsDecimal⟩, postInit_costed (_components_policy r spec)⟩

theorem usesPolicy_costFill (r : FillReference) (spec : BacktestSpec) :
    (costFill r spec).UsesPolicy spec := ⟨rfl, rfl⟩

theorem applyCosts_eq_ok {r : FillReference} {spec : BacktestSpec} (h : r.symbol = spec.symbol) :
    applyCosts r spec = .ok (costFill r spec) := by
  unfold applyCosts
  rw [raiseIf_neg (not_not.mpr h)]
  change (match h : _components r spec.feeBpsDecimal spec.slippageBpsDecimal with
    | .ok values => _
    | .error e => _) = _
  split
  · rename_i values hv
    rw [_components_policy] at hv
    cases hv
    rfl
  · rename_i e he
    rw [_components_policy] at he
    cases he

end TradingLab
