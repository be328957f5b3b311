import TradingLab.Decimal.Sum
import TradingLab.Risk.EntryApproval

/-!
# The greatest safe quantity

Sizing divides the budget by the loss of a unit and rounds down to the step. The
budget and the loss have so few digits that the rounded quotient has the floor of the
exact one: the quantity is the greatest multiple of the step within the budget, and
the checks that come after the rounding never fail.
-/

namespace TradingLab

open RiskState (_canonical precision)
open Decimal (ofText Fits Holds OnGrid)

namespace Sizing

/-- The rounding of the quantity, as it is written in the sizing. -/
def stepped (riskBudget lossPerUnit : Decimal) : Decimal :=
  Decimal.mul precision (floorInteger
    (Decimal.quotient precision (Decimal.quotient precision riskBudget lossPerUnit) quantityStep))
    quantityStep

theorem quantityStep_eq : quantityStep = ⟨false, 1, -6⟩ := by decide +kernel

theorem toRat_quantityStep : quantityStep.toRat = 1 / 10 ^ 6 := by
  rw [quantityStep_eq]
  norm_num [Decimal.toRat, Decimal.int]

theorem toRat_floorInteger {d : Decimal} (h : 0 ≤ d.toRat) :
    (floorInteger d).toRat = ⌊d.toRat⌋ := by
  unfold floorInteger
  split_ifs with he
  · obtain ⟨k, hk⟩ := Int.eq_ofNat_of_zero_le he
    have hint : d.toRat = ((d.int * 10 ^ k : ℤ) : ℚ) := by
      rw [Decimal.toRat, hk]
      push_cast
      rfl
    rw [hint, Int.floor_intCast]
  rcases (Decimal.toRat_nonneg_iff d).mp h with hsign | hzero
  · obtain ⟨k, hk⟩ : ∃ k : ℕ, d.exponent = -k := ⟨(-d.exponent).toNat, by omega⟩
    have hvalue : d.toRat = (d.coefficient : ℚ) / (10 ^ k : ℕ) := by
      rw [Decimal.toRat, Decimal.int, hsign, hk, zpow_neg, zpow_natCast]
      push_cast
      rfl
    rw [hvalue, Rat.floor_natCast_div_natCast]
    unfold Decimal.toRat Decimal.int
    rw [hsign, hk, neg_neg, Int.toNat_natCast]
    simp
  · have hvalue : d.toRat = 0 := (Decimal.toRat_eq_zero_iff d).mpr hzero
    rw [hvalue, Int.floor_zero, Int.cast_zero, Decimal.toRat_eq_zero_iff, hzero]
    exact Nat.zero_div _

def exactSteps (budget loss : ℚ) : ℤ := ⌊budget / loss * 10 ^ 6⌋

theorem le_exactSteps_iff {budget loss : ℚ} (hloss0 : 0 < loss) (k : ℤ) :
    k ≤ exactSteps budget loss ↔ (k / 10 ^ 6 : ℚ) * loss ≤ budget := by
  unfold exactSteps
  rw [Int.le_floor, div_mul_eq_mul_div, le_div_iff₀ hloss0, div_mul_eq_mul_div,
    div_le_iff₀ (by positivity)]

section Rounding
variable {riskBudget lossPerUnit : Decimal} {budget loss : ℚ}
  (hbudget : Holds 42 40 riskBudget budget) (hloss : Holds 48 44 lossPerUnit loss)
  (hbudget0 : 0 < budget) (hloss0 : 0 < loss)
include hbudget hloss hbudget0 hloss0

/-- The rounded number of steps is the exact one. -/
theorem toRat_steps : (floorInteger (Decimal.quotient precision
    (Decimal.quotient precision riskBudget lossPerUnit) quantityStep)).toRat =
      exactSteps budget loss := by
  obtain ⟨d, hround, -⟩ := Decimal.exists_round_quotient precision_pos
    (by rw [hbudget.value]; exact hbudget0 : 0 < riskBudget.toRat)
    (by rw [hloss.value]; exact hloss0 : 0 < lossPerUnit.toRat)
  have hrep : Decimal.Representable precision
      (Decimal.quotient precision riskBudget lossPerUnit).toRat := by
    rw [hround]
    exact Decimal.representable_round precision_pos d
  have hdivide : (Decimal.quotient precision riskBudget lossPerUnit).toRat / quantityStep.toRat =
      (Decimal.quotient precision riskBudget lossPerUnit).toRat * 10 ^ 6 := by
    rw [toRat_quantityStep, one_div, div_inv_eq_mul]
  have hsecond : (Decimal.quotient precision (Decimal.quotient precision riskBudget lossPerUnit)
      quantityStep).toRat = (Decimal.quotient precision riskBudget lossPerUnit).toRat * 10 ^ 6 := by
    rw [← hdivide]
    apply Decimal.toRat_quotient precision_pos
    · rw [quantityStep_eq]
      exact Nat.one_ne_zero
    · rw [hdivide]
      exact hrep.scale 6
  have hnonneg : 0 ≤ (Decimal.quotient precision riskBudget lossPerUnit).toRat := by
    refine Decimal.le_quotient precision_pos (by rw [hbudget.value]; exact hbudget0)
      (by rw [hloss.value]; exact hloss0) (Decimal.representable_zero precision) ?_
    rw [hbudget.value, hloss.value]
    positivity
  rw [toRat_floorInteger (by rw [hsecond]; positivity), hsecond,
    Decimal.floor_quotient precision_pos hbudget hloss hbudget0 hloss0 (by decide)]
  rfl

/-- The sized quantity is the exact number of steps. -/
theorem holds_stepped :
    Holds 6 88 (stepped riskBudget lossPerUnit) (exactSteps budget loss / 10 ^ 6) := by
  have hfloor := Int.floor_le (budget / loss * 10 ^ 6)
  have hlt := hbudget.fits.div_lt hloss.fits hbudget0 hloss0
  have hsteps : 0 ≤ exactSteps budget loss := Int.floor_nonneg.mpr (by positivity)
  have hfits : Fits 6 88 (exactSteps budget loss / 10 ^ 6 : ℚ) := by
    constructor
    · exact ⟨exactSteps budget loss, by field_simp⟩
    · have hcast : (0 : ℚ) ≤ exactSteps budget loss := by exact_mod_cast hsteps
      rw [abs_of_nonneg (by positivity), div_lt_iff₀ (by positivity)]
      calc (exactSteps budget loss : ℚ) ≤ budget / loss * 10 ^ 6 := hfloor
        _ < 10 ^ (40 + 48) * 10 ^ 6 := by gcongr
        _ = 10 ^ 88 * 10 ^ 6 := by norm_num
  have hproduct : (floorInteger (Decimal.quotient precision
      (Decimal.quotient precision riskBudget lossPerUnit) quantityStep)).toRat *
        quantityStep.toRat = exactSteps budget loss / 10 ^ 6 := by
    rw [toRat_steps hbudget hloss hbudget0 hloss0, toRat_quantityStep, mul_one_div]
  refine ⟨?_, hfits⟩
  unfold stepped
  rw [Decimal.toRat_mul precision_pos, hproduct]
  rw [hproduct]
  exact hfits.representable (by decide)

/-- The planned loss is computed exactly and stays within the budget. -/
theorem plannedLoss_le :
    (Decimal.mul precision (stepped riskBudget lossPerUnit) lossPerUnit).toRat =
      exactSteps budget loss / 10 ^ 6 * loss ∧
    (exactSteps budget loss / 10 ^ 6 : ℚ) * loss ≤ budget := by
  have hplanned := (holds_stepped hbudget hloss hbudget0 hloss0).mul precision_pos hloss (by decide)
  refine ⟨hplanned.value, ?_⟩
  exact (le_exactSteps_iff hloss0 _).mp le_rfl

end Rounding

theorem equity_of_request (r : RiskRequest) :
    decimalPattern r.portfolio.equityQuote ∧ 0 < (ofText r.portfolio.equityQuote).toRat := by
  have h := r.portfolio.valid
  unfold PortfolioRiskState.Fields.postInit at h
  obtain ⟨-, -, h⟩ := bind_eq_ok.mp h
  obtain ⟨d, hd, -⟩ := bind_eq_ok.mp h
  obtain ⟨hpattern, hpos, -⟩ := RiskContracts._decimal_eq_ok.mp hd
  rw [Decimal.lt_def, Decimal.toRat_zero] at hpos
  exact ⟨hpattern, hpos rfl⟩

/-- The loss of a unit of a setup, as it is written in the sizing. -/
def lossOf (setup : LongSetup) : Decimal :=
  let entryExecution := raised (ofText setup.referencePrice)
  let stopExecution := lowered (ofText setup.invalidationPrice)
  Decimal.add precision (Decimal.sub precision entryExecution stopExecution)
    (Decimal.mul precision (Decimal.add precision entryExecution stopExecution) feeRate)

def budgetOf (r : RiskRequest) : Decimal :=
  Decimal.mul precision (ofText r.portfolio.equityQuote) (ofText r.policy.riskPerTradeFraction)

/-- The planned loss never exceeds the budget. -/
theorem planned_le_budget (r : RiskRequest) (setup : LongSetup) (hbudget : 0 < (budgetOf r).toRat)
    (hloss : 0 < (lossOf setup).toRat) :
    (Decimal.mul precision (stepped (budgetOf r) (lossOf setup)) (lossOf setup)).toRat ≤
      (budgetOf r).toRat := by
  obtain ⟨⟨hentry, hstop, -⟩, -⟩ := setup.facts
  have hb : Holds 42 40 (budgetOf r) _ := holds_riskBudget (equity_of_request r).1 r.policy
  have hl : Holds 48 44 (lossOf setup) _ := holds_lossPerUnit hentry hstop
  rw [hb.value] at hbudget ⊢
  rw [hl.value] at hloss
  obtain ⟨hplanned, hle⟩ := plannedLoss_le hb hl hbudget hloss
  rw [hplanned]
  exact hle

/-- The errors of the checks that follow the rounding. -/
def roundingMessages : List String := ["Rounded quantity exceeds the loss budget",
  "Position-size result exceeds its loss budget",
  "Position size was not rounded to the maximum safe step"]

theorem entryValues_eq_error {r : RiskRequest} {e : RiskSizingError}
    (h : _entryValues r = .error e) : e.message ∉ roundingMessages := by
  unfold _entryValues at h
  dsimp only at h
  cases hs : r.strategyDecision.setup with
  | none =>
    rw [hs] at h
    cases h
    decide
  | some setup =>
    rw [hs] at h
    simp only [bind_eq_error, raiseIf_eq_error, raiseIf_eq_ok, exists_const, pure, Except.pure,
      reduceCtorEq, and_false, or_false] at h
    rcases h with ⟨-, rfl⟩ | ⟨-, ⟨-, rfl⟩ | ⟨-, ⟨-, rfl⟩ | ⟨hpos, ⟨-, rfl⟩ | ⟨-, hover, -⟩⟩⟩⟩
    · decide
    · decide
    · decide
    · decide
    · rw [not_or, Decimal.le_def, Decimal.le_def, Decimal.toRat_zero, not_le, not_le] at hpos
      exact absurd (planned_le_budget r setup hpos.1 hpos.2) (not_le.mpr (Decimal.lt_def.mp hover))

theorem stepped_of_entryValues {r : RiskRequest} {v : Values} (h : _entryValues r = .ok v) :
    ∃ setup, r.strategyDecision.setup = some setup ∧ v.riskBudgetQuote = budgetOf r ∧
      v.lossPerUnitQuote = lossOf setup ∧ 0 < (budgetOf r).toRat ∧ 0 < (lossOf setup).toRat ∧
      v.quantity = stepped (budgetOf r) (lossOf setup) ∧
      v.plannedLossQuote = Decimal.mul precision v.quantity v.lossPerUnitQuote := by
  unfold _entryValues at h
  dsimp only at h
  cases hs : r.strategyDecision.setup with
  | none =>
    rw [hs] at h
    cases h
  | some setup =>
    rw [hs] at h
    simp only [raiseIf_bind_eq_ok, pure, Except.pure, Except.ok.injEq] at h
    obtain ⟨-, -, hpos, -, -, hv⟩ := h
    rw [not_or, Decimal.le_def, Decimal.le_def, Decimal.toRat_zero, not_le, not_le] at hpos
    subst hv
    unfold lossOf budgetOf stepped
    dsimp only
    exact ⟨setup, rfl, rfl, rfl, hpos.1, hpos.2, rfl, rfl⟩

/-- The exact loss of a unit. -/
def unitLoss (setup : LongSetup) : ℚ :=
  (ofText setup.referencePrice).toRat * (1 + 5 / 10000) -
    (ofText setup.invalidationPrice).toRat * (1 - 5 / 10000) +
      ((ofText setup.referencePrice).toRat * (1 + 5 / 10000) +
        (ofText setup.invalidationPrice).toRat * (1 - 5 / 10000)) * (10 / 10000)

/-- What sizing computes, in exact numbers. -/
structure Exact (r : RiskRequest) (setup : LongSetup) (v : Values) (budget : ℚ) : Prop where
  setup_eq : r.strategyDecision.setup = some setup
  budget_eq : budget = (ofText r.portfolio.equityQuote).toRat / 100
  budget_pos : 0 < budget
  loss_pos : 0 < unitLoss setup
  riskBudget : v.riskBudgetQuote.toRat = budget
  lossPerUnit : v.lossPerUnitQuote.toRat = unitLoss setup
  quantity : v.quantity.toRat = exactSteps budget (unitLoss setup) / 10 ^ 6
  plannedLoss : v.plannedLossQuote.toRat =
    exactSteps budget (unitLoss setup) / 10 ^ 6 * unitLoss setup

theorem exact_of_entryValues {r : RiskRequest} {v : Values} (h : _entryValues r = .ok v) :
    ∃ setup budget, Exact r setup v budget := by
  obtain ⟨setup, hsetup, hbudget, hloss, hbudget0, hloss0, hquantity, hplanned⟩ :=
    stepped_of_entryValues h
  obtain ⟨⟨hentry, hstop, -⟩, -⟩ := setup.facts
  have hb : Holds 42 40 (budgetOf r) ((ofText r.portfolio.equityQuote).toRat / 100) :=
    holds_riskBudget (equity_of_request r).1 r.policy
  have hl : Holds 48 44 (lossOf setup) (unitLoss setup) := holds_lossPerUnit hentry hstop
  rw [hb.value] at hbudget0
  rw [hl.value] at hloss0
  refine ⟨setup, _, hsetup, rfl, hbudget0, hloss0, ?_, ?_, ?_, ?_⟩
  · rw [hbudget, hb.value]
  · rw [hloss, hl.value]
  · rw [hquantity, (holds_stepped hb hl hbudget0 hloss0).value]
  · rw [hplanned, hquantity, hloss, (plannedLoss_le hb hl hbudget0 hloss0).1]

end Sizing

namespace PositionSize

/-- A record that repeats the computed values passes the two checks on them. -/
theorem Fields.checks_of_matches {p : Fields} {v : Sizing.Values} {setup : LongSetup} {budget : ℚ}
    (hexact : Sizing.Exact p.request setup v budget) (hmatches : p.matches v = true) :
    ¬ ofText p.riskBudgetQuote < ofText p.plannedLossQuote ∧
      ¬ Decimal.mul precision (Decimal.add precision (ofText p.quantity) Sizing.quantityStep)
        (ofText p.lossPerUnitQuote) ≤ ofText p.riskBudgetQuote := by
  simp only [Fields.matches, List.all_cons, List.all_nil, Bool.and_true, Bool.and_eq_true] at hmatches
  obtain ⟨hq, hb, -, -, hl, hp, -⟩ := hmatches
  obtain ⟨qpattern, -, hquantity⟩ := repeats_eq_true hq
  obtain ⟨-, -, hbudget⟩ := repeats_eq_true hb
  obtain ⟨lpattern, -, hloss⟩ := repeats_eq_true hl
  obtain ⟨-, -, hplanned⟩ := repeats_eq_true hp
  have hloss0 := hexact.loss_pos
  constructor
  · rw [Decimal.lt_def, not_lt, hbudget, hplanned, hexact.riskBudget, hexact.plannedLoss]
    exact (Sizing.le_exactSteps_iff hloss0 _).mp le_rfl
  · have hstep : Holds 40 40 Sizing.quantityStep (1 / 10 ^ 6) :=
      ⟨Sizing.toRat_quantityStep, ⟨10 ^ 34, by norm_num⟩, by norm_num [abs_of_pos]⟩
    have hnext := ((holds_decimalPattern qpattern).add Sizing.precision_pos hstep (by decide)).mul
      Sizing.precision_pos (holds_decimalPattern lpattern) (by decide)
    rw [Decimal.le_def, hnext.value, hquantity, hloss, hbudget, hexact.quantity,
      hexact.lossPerUnit, hexact.riskBudget]
    intro hle
    have habove : Sizing.exactSteps budget (Sizing.unitLoss setup) + 1 ≤
        Sizing.exactSteps budget (Sizing.unitLoss setup) := by
      rw [Sizing.le_exactSteps_iff hloss0]
      push_cast
      rw [add_div]
      exact hle
    omega

theorem Fields.postInit_eq_error {p : Fields} {e : RiskSizingError} (h : p.postInit = .error e) :
    Sizing._entryValues p.request = .error e ∨
      e.message = "Position-size result is noncanonical or inconsistent" := by
  unfold Fields.postInit at h
  rcases bind_eq_error.mp h with h | ⟨v, hv, h⟩
  · exact .inl h
  right
  obtain ⟨setup, budget, hexact⟩ := Sizing.exact_of_entryValues hv
  simp only [bind_eq_error, raiseIf_eq_error, raiseIf_eq_ok, exists_const, not_not] at h
  rcases h with ⟨-, rfl⟩ | ⟨hmatches, h⟩
  · rfl
  obtain ⟨hbudget, hnext⟩ := Fields.checks_of_matches hexact hmatches
  rcases h with ⟨hover, -⟩ | ⟨-, hle, -⟩
  · exact absurd hover hbudget
  · exact absurd hle hnext

end PositionSize

/-- The multiples of the step whose loss at the stop, costs included, is within one percent
of the equity. -/
def EntryTerms.affordable (t : EntryTerms) : Set ℚ :=
  {q | (∃ k : ℤ, q = k * (1 / 10 ^ 6)) ∧ q * t.lossPerUnit ≤ t.equity / 100}

theorem isGreatest_affordable {t : EntryTerms} (hloss : 0 < t.lossPerUnit)
    (hquantity : t.quantity = Sizing.exactSteps (t.equity / 100) t.lossPerUnit / 10 ^ 6) :
    IsGreatest t.affordable t.quantity := by
  constructor
  · refine ⟨⟨Sizing.exactSteps (t.equity / 100) t.lossPerUnit, ?_⟩, ?_⟩
    · rw [hquantity, mul_one_div]
    · rw [hquantity]
      exact (Sizing.le_exactSteps_iff hloss _).mp le_rfl
  · rintro q ⟨⟨k, rfl⟩, hle⟩
    rw [mul_one_div] at hle ⊢
    have hk := (Sizing.le_exactSteps_iff hloss k).mpr hle
    rw [hquantity]
    gcongr

/-- **Sizing optimality.** -/
theorem sizeEntry_optimal (r : RiskRequest) :
    (∀ p, sizeEntry r = .ok p → p.request = r ∧ ∃ setup, r.strategyDecision.setup = some setup ∧
      (p.terms setup).quantity =
        ⌊(p.terms setup).equity / 100 / (p.terms setup).lossPerUnit * 10 ^ 6⌋ / 10 ^ 6 ∧
      IsGreatest (p.terms setup).affordable (p.terms setup).quantity) ∧
    ∀ e, sizeEntry r = .error e → e.message ∉ Sizing.roundingMessages := by
  constructor
  · intro p h
    unfold sizeEntry at h
    obtain ⟨v, hv, h⟩ := bind_eq_ok.mp h
    obtain ⟨hvalid, rfl⟩ := construct_eq_ok.mp h
    obtain ⟨setup, budget, hexact⟩ := Sizing.exact_of_entryValues hv
    have hquantity : (ofText (_canonical v.quantity)).toRat =
        Sizing.exactSteps ((ofText r.portfolio.equityQuote).toRat / 100) (Sizing.unitLoss setup) /
          10 ^ 6 := by
      rw [← hexact.budget_eq, ← hexact.quantity]
      exact Decimal.toRat_ofText_fixed v.quantity
    exact ⟨rfl, setup, hexact.setup_eq, hquantity, isGreatest_affordable hexact.loss_pos hquantity⟩
  · intro e h
    unfold sizeEntry at h
    rcases bind_eq_error.mp h with h | ⟨v, hv, h⟩
    · exact Sizing.entryValues_eq_error h
    · rcases PositionSize.Fields.postInit_eq_error (construct_eq_error.mp h) with h | h
      · exact Sizing.entryValues_eq_error h
      · rw [h]
        decide

theorem sizeEntry_optimal_earliest :
    IsGreatest (sizedEntry.terms plainSetup).affordable (sizedEntry.terms plainSetup).quantity := by
  obtain ⟨-, setup, hsetup, -, hgreatest⟩ :=
    (sizeEntry_optimal entryRequest).1 sizedEntry (by decide +kernel)
  have hplain : some plainSetup = some setup := hsetup
  cases hplain
  exact hgreatest

end TradingLab
