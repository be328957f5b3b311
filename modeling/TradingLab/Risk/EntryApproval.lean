import TradingLab.Risk.ExitApproval

/-!
# Approval of entries

An entry is approved on evidence that was built in four steps, each record
inside the next one, and that may come from anywhere. Every record has been
recomputed by its own constructor, and none of the computations rounds, so that
an approval says what it should about the exact numbers.
-/

namespace TradingLab

open RiskState (_canonical precision)
open Decimal (ofText Fits Holds OnGrid)

structure EntryTerms where
  quantity : ℚ
  entry : ℚ
  stop : ℚ
  target : ℚ
  equity : ℚ
  cash : ℚ

namespace EntryTerms
variable (t : EntryTerms)

def entryExecution : ℚ := t.entry * (1 + 5 / 10000)
def stopExecution : ℚ := t.stop * (1 - 5 / 10000)
def targetExecution : ℚ := t.target * (1 - 5 / 10000)

def lossPerUnit : ℚ :=
  t.entryExecution - t.stopExecution + (t.entryExecution + t.stopExecution) * (10 / 10000)

def notional : ℚ := t.quantity * t.entryExecution
def cashRequired : ℚ := t.notional + t.notional * 10 / 10000

/-- What the position earns at the target. -/
def netReward : ℚ :=
  t.quantity * (t.targetExecution - t.entryExecution) - t.notional * (10 / 10000) -
    t.quantity * t.targetExecution * (10 / 10000)

structure Sound : Prop where
  quantity_pos : 0 < t.quantity
  loss : t.quantity * t.lossPerUnit ≤ t.equity / 100
  notional : t.notional ≤ t.equity / 4
  cash : t.cashRequired ≤ t.cash
  stop_lt_entry : t.stop < t.entry
  entry_lt_target : t.entry < t.target
  reward : 0 < t.netReward

end EntryTerms

theorem holds_decimalPattern {s : String} (h : decimalPattern s) :
    Holds 40 40 (ofText s) (ofText s).toRat := by
  obtain ⟨-, -, h0, hlt⟩ := decimalPattern_bounds h
  exact ⟨rfl, onGrid_decimalPattern h, by rwa [abs_of_nonneg h0]⟩

theorem repeats_eq_true {pattern : String → Bool} {value : String} {expected : Decimal}
    (h : repeats pattern value expected = true) :
    pattern value = true ∧ value = _canonical expected ∧
      (ofText value).toRat = expected.toRat := by
  unfold repeats at h
  rw [Bool.and_eq_true, beq_iff_eq] at h
  refine ⟨h.1, h.2, ?_⟩
  rw [h.2]
  exact Decimal.toRat_ofText_fixed expected

namespace Sizing

theorem precision_pos : 0 < precision := by decide

theorem holds_slippageRate : Holds 4 0 slippageRate (5 / 10000) := by
  have hrate : slippageRate = ⟨false, 5, -4⟩ := by decide +kernel
  rw [hrate]
  refine ⟨by norm_num [Decimal.toRat, Decimal.int], ⟨5, by norm_num⟩, by norm_num [abs_of_pos]⟩

theorem holds_feeRate : Holds 4 0 feeRate (10 / 10000) := by
  have hrate : feeRate = ⟨false, 1, -3⟩ := by decide +kernel
  rw [hrate]
  refine ⟨by norm_num [Decimal.toRat, Decimal.int], ⟨10, by norm_num⟩, by norm_num [abs_of_pos]⟩

theorem holds_one : Holds 4 1 (1 : Decimal) 1 :=
  ⟨Decimal.toRat_one, Decimal.onGrid_one 4, by norm_num⟩

theorem holds_raised {s : String} (h : decimalPattern s) :
    Holds 44 42 (raised (ofText s)) ((ofText s).toRat * (1 + 5 / 10000)) := by
  have hfactor := holds_one.add precision_pos (holds_slippageRate.mono le_rfl (Nat.zero_le 1))
    (by decide)
  exact (holds_decimalPattern h).mul precision_pos hfactor (by decide)

theorem holds_lowered {s : String} (h : decimalPattern s) :
    Holds 44 42 (lowered (ofText s)) ((ofText s).toRat * (1 - 5 / 10000)) := by
  have hfactor := holds_one.sub precision_pos (holds_slippageRate.mono le_rfl (Nat.zero_le 1))
    (by decide)
  exact (holds_decimalPattern h).mul precision_pos hfactor (by decide)

theorem holds_lossPerUnit {entry stop : String} (hentry : decimalPattern entry)
    (hstop : decimalPattern stop) :
    Holds 48 44 (Decimal.add precision
      (Decimal.sub precision (raised (ofText entry)) (lowered (ofText stop)))
      (Decimal.mul precision
        (Decimal.add precision (raised (ofText entry)) (lowered (ofText stop))) feeRate))
      ((ofText entry).toRat * (1 + 5 / 10000) - (ofText stop).toRat * (1 - 5 / 10000) +
        ((ofText entry).toRat * (1 + 5 / 10000) + (ofText stop).toRat * (1 - 5 / 10000)) *
          (10 / 10000)) := by
  have hraised := holds_raised hentry
  have hlowered := holds_lowered hstop
  have hfee := (hraised.add precision_pos hlowered (by decide)).mul precision_pos holds_feeRate
    (by decide)
  have hgap := (hraised.sub precision_pos hlowered (by decide)).mono (by decide : 44 ≤ 48) le_rfl
  exact hgap.add precision_pos hfee (by decide)

theorem holds_riskBudget {equity : String} (h : decimalPattern equity) (policy : RiskPolicy) :
    Holds 42 40 (Decimal.mul precision (ofText equity) (ofText policy.riskPerTradeFraction))
      ((ofText equity).toRat / 100) := by
  have hfraction : Holds 2 0 (ofText policy.riskPerTradeFraction) (1 / 100) := by
    rw [policy.eq_frozen]
    have htext : ofText RiskPolicy.frozen.riskPerTradeFraction = ⟨false, 1, -2⟩ := by
      decide +kernel
    rw [htext]
    exact ⟨by norm_num [Decimal.toRat, Decimal.int], ⟨1, by norm_num⟩, by norm_num [abs_of_pos]⟩
  have hproduct := (holds_decimalPattern h).mul precision_pos hfraction (by decide)
  rw [mul_one_div] at hproduct
  exact hproduct

structure Sized (r : RiskRequest) (setup : LongSetup) (v : Values) : Prop where
  setup_eq : r.strategyDecision.setup = some setup
  riskBudget : v.riskBudgetQuote = Decimal.mul precision (ofText r.portfolio.equityQuote)
    (ofText r.policy.riskPerTradeFraction)
  entryExecution : v.entryExecutionPrice = raised (ofText setup.referencePrice)
  stopExecution : v.stopExecutionPrice = lowered (ofText setup.invalidationPrice)
  lossPerUnit : v.lossPerUnitQuote = Decimal.add precision
    (Decimal.sub precision v.entryExecutionPrice v.stopExecutionPrice)
    (Decimal.mul precision (Decimal.add precision v.entryExecutionPrice v.stopExecutionPrice)
      feeRate)
  quantity_pos : 0 < v.quantity
  plannedLoss : v.plannedLossQuote = Decimal.mul precision v.quantity v.lossPerUnitQuote
  within : v.plannedLossQuote ≤ v.riskBudgetQuote

theorem sized_of_entryValues {r : RiskRequest} {v : Values} (h : _entryValues r = .ok v) :
    ∃ setup, Sized r setup v := by
  unfold _entryValues at h
  dsimp only at h
  cases hs : r.strategyDecision.setup with
  | none =>
    rw [hs] at h
    cases h
  | some setup =>
    rw [hs] at h
    simp only [raiseIf_bind_eq_ok, pure, Except.pure, Except.ok.injEq, Decimal.le_def,
      Decimal.lt_def, not_le, not_lt] at h
    obtain ⟨-, -, -, hq, hle, hv⟩ := h
    subst hv
    refine ⟨setup, ⟨hs, ?_, ?_, ?_, ?_, ?_, ?_, ?_⟩⟩
    all_goals dsimp only
    · rw [Decimal.lt_def]
      exact hq
    · rw [Decimal.le_def]
      exact hle

end Sizing

/-- The numbers of a sized entry. -/
def PositionSize.terms (p : PositionSize) (setup : LongSetup) : EntryTerms where
  quantity := (ofText p.quantity).toRat
  entry := (ofText setup.referencePrice).toRat
  stop := (ofText setup.invalidationPrice).toRat
  target := (ofText setup.targetPrice).toRat
  equity := (ofText p.request.portfolio.equityQuote).toRat
  cash := (ofText p.request.portfolio.cashQuote).toRat

/-- A sizing keeps its loss within one percent of the equity. -/
structure PositionSize.Facts (p : PositionSize) (setup : LongSetup) : Prop where
  setup_eq : p.request.strategyDecision.setup = some setup
  quantity : decimalPattern p.quantity = true
  quantity_pos : 0 < (p.terms setup).quantity
  entryPattern : decimalPattern p.entryExecutionPrice = true
  entryExecution : (ofText p.entryExecutionPrice).toRat = (p.terms setup).entryExecution
  lossPerUnit : (ofText p.lossPerUnitQuote).toRat = (p.terms setup).lossPerUnit
  loss : (p.terms setup).quantity * (p.terms setup).lossPerUnit ≤ (p.terms setup).equity / 100

theorem PositionSize.facts (p : PositionSize)
    (hequity : decimalPattern p.request.portfolio.equityQuote) : ∃ setup, p.Facts setup := by
  have h := p.valid
  unfold PositionSize.Fields.postInit at h
  obtain ⟨v, hv, h⟩ := bind_eq_ok.mp h
  obtain ⟨setup, hsized⟩ := Sizing.sized_of_entryValues hv
  obtain ⟨⟨pref, pinv, -⟩, -⟩ := setup.facts
  rw [raiseIf_bind_eq_ok, not_not] at h
  have hall := h.1
  simp only [PositionSize.Fields.matches, List.all_cons, List.all_nil, Bool.and_true,
    Bool.and_eq_true] at hall
  obtain ⟨hq, -, he, -, hl, hp, -⟩ := hall
  obtain ⟨qpat, -, qval⟩ := repeats_eq_true hq
  obtain ⟨epat, -, eval⟩ := repeats_eq_true he
  obtain ⟨lpat, -, lval⟩ := repeats_eq_true hl
  have hentry := Sizing.holds_raised pref
  have hloss := Sizing.holds_lossPerUnit pref pinv
  rw [← hsized.entryExecution, ← hsized.stopExecution, ← hsized.lossPerUnit] at hloss
  have hplanned : v.plannedLossQuote.toRat =
      (ofText p.quantity).toRat * (ofText p.lossPerUnitQuote).toRat := by
    have hexact := ((holds_decimalPattern qpat).fits.mul
      (holds_decimalPattern lpat).fits).representable (by decide : 40 + 40 + (40 + 40) ≤ precision)
    rw [qval, lval] at hexact ⊢
    rw [hsized.plannedLoss]
    exact Decimal.toRat_mul Sizing.precision_pos hexact
  have hbudget : v.riskBudgetQuote.toRat = (ofText p.request.portfolio.equityQuote).toRat / 100 := by
    rw [hsized.riskBudget, (Sizing.holds_riskBudget hequity _).value]
  have hwithin := hsized.within
  have hpos := hsized.quantity_pos
  rw [Decimal.le_def, hplanned, hbudget] at hwithin
  rw [Decimal.lt_def, Decimal.toRat_zero, ← qval] at hpos
  have hunit : (ofText p.lossPerUnitQuote).toRat = (p.terms setup).lossPerUnit := by
    rw [lval, hloss.value]
    rfl
  refine ⟨setup, ⟨hsized.setup_eq, qpat, hpos, epat, ?_, hunit, ?_⟩⟩
  · rw [eval, hsized.entryExecution, hentry.value]
    rfl
  · rw [← hunit]
    exact hwithin

namespace Limits

theorem passed_of_values {size : PositionSize} {v : Values} (h : _values size = .ok v)
    (hpass : v.status = .pass) :
    let notional := Decimal.mul precision (ofText size.quantity) (ofText size.entryExecutionPrice)
    ¬ Decimal.mul precision (ofText size.request.portfolio.equityQuote)
      (ofText size.request.policy.maxPositionFraction) < notional ∧
    ¬ ofText size.request.portfolio.cashQuote < Decimal.add precision notional
      (Decimal.quotient precision (Decimal.mul precision notional Sizing.feeBps)
        Sizing.basisPoints) := by
  unfold _values at h
  rw [raiseIf_bind_eq_ok] at h
  have hv := h.2
  dsimp only at hv
  split_ifs at hv with hnotional hcash
  · cases hv
    cases hpass
  · cases hv
    cases hpass
  · rw [not_or] at hnotional
    exact ⟨hnotional.1, hcash⟩

end Limits

/-- A passed limit assessment bounds the notional and the cash. -/
theorem EntryLimitAssessment.passed (a : EntryLimitAssessment) {setup : LongSetup}
    (hsize : a.positionSize.Facts setup)
    (hequity : decimalPattern a.positionSize.request.portfolio.equityQuote)
    (hpass : a.status = .pass) :
    (a.positionSize.terms setup).notional ≤ (a.positionSize.terms setup).equity / 4 ∧
      (a.positionSize.terms setup).cashRequired ≤ (a.positionSize.terms setup).cash := by
  have h := a.valid
  unfold EntryLimitAssessment.Fields.postInit at h
  obtain ⟨v, hv, h⟩ := bind_eq_ok.mp h
  rw [raiseIf_bind_eq_ok, not_or, not_not] at h
  obtain ⟨hnotional, hcash⟩ := Limits.passed_of_values hv (h.1.1.symm.trans hpass)
  have hexecution := holds_decimalPattern hsize.entryPattern
  rw [hsize.entryExecution] at hexecution
  have hvalue := (holds_decimalPattern hsize.quantity).mul Sizing.precision_pos hexecution (by decide)
  have hlimit : Holds 2 0 (ofText a.positionSize.request.policy.maxPositionFraction) (25 / 100) := by
    rw [a.positionSize.request.policy.eq_frozen]
    have htext : ofText RiskPolicy.frozen.maxPositionFraction = ⟨false, 25, -2⟩ := by
      decide +kernel
    rw [htext]
    exact ⟨by norm_num [Decimal.toRat, Decimal.int], ⟨25, by norm_num⟩, by norm_num [abs_of_pos]⟩
  have hposition := (holds_decimalPattern hequity).mul Sizing.precision_pos hlimit (by decide)
  have hten : Holds 0 2 Sizing.feeBps 10 := by
    have htext : Sizing.feeBps = ⟨false, 10, 0⟩ := by decide +kernel
    rw [htext]
    exact ⟨by norm_num [Decimal.toRat, Decimal.int], ⟨10, by norm_num⟩, by norm_num [abs_of_pos]⟩
  have hbasis : Sizing.basisPoints.toRat = 10000 := by
    have htext : Sizing.basisPoints = ⟨false, 10000, 0⟩ := by decide +kernel
    rw [htext]
    norm_num [Decimal.toRat, Decimal.int]
  have hproduct := hvalue.mul Sizing.precision_pos hten (by decide)
  have hfee := Holds.quotient Sizing.precision_pos hproduct.value hbasis (by norm_num)
    hproduct.fits.div_tenThousand (by decide)
  have hrequired := (hvalue.mono (by decide : 80 ≤ 84) (by decide : 80 ≤ 82)).add
    Sizing.precision_pos hfee (by decide)
  rw [Decimal.lt_def, not_lt, hvalue.value, hposition.value] at hnotional
  rw [Decimal.lt_def, not_lt, hrequired.value] at hcash
  constructor
  · refine hnotional.trans (le_of_eq ?_)
    change (a.positionSize.terms setup).equity * (25 / 100) = _
    ring
  · exact hcash

namespace Protective

theorem passed_of_values {limit : EntryLimitAssessment} {v : Values} {setup : LongSetup}
    (hsetup : limit.positionSize.request.strategyDecision.setup = some setup)
    (h : _values limit = .ok v) (hpass : v.status = .pass) :
    limit.status = .pass ∧ v.quantity = ofText limit.positionSize.quantity ∧
      let fee := fun price => Decimal.mul precision
        (Decimal.mul precision (ofText limit.positionSize.quantity) price) Sizing.feeRate
      ¬ Decimal.sub precision (Decimal.sub precision
        (Decimal.mul precision (ofText limit.positionSize.quantity) (Decimal.sub precision
          (Sizing.lowered (ofText setup.targetPrice)) (Sizing.raised (ofText setup.referencePrice))))
        (fee (Sizing.raised (ofText setup.referencePrice))))
        (fee (Sizing.lowered (ofText setup.targetPrice))) ≤ 0 := by
  unfold _values at h
  dsimp only at h
  rw [hsetup] at h
  dsimp only at h
  rw [Except.ok.injEq] at h
  subst h
  dsimp only at hpass ⊢
  split_ifs at hpass with h1 h2 h3 h4
  · exact ⟨not_not.mp h1, rfl, h4⟩

end Protective

/-- A passed gate has a positive reward. -/
theorem ProtectiveAssessment.passed (a : ProtectiveAssessment) {setup : LongSetup}
    (hsize : a.limitAssessment.positionSize.Facts setup) (hpass : a.status = .pass) :
    a.limitAssessment.status = .pass ∧ a.quantity = a.limitAssessment.positionSize.quantity ∧
      0 < (a.limitAssessment.positionSize.terms setup).netReward := by
  have h := a.valid
  unfold ProtectiveAssessment.Fields.postInit at h
  obtain ⟨v, hv, h⟩ := bind_eq_ok.mp h
  rw [raiseIf_bind_eq_ok, not_or, not_not, raiseIf_bind_eq_ok] at h
  obtain ⟨hlimit, hvq, hreward⟩ :=
    Protective.passed_of_values hsize.setup_eq hv (h.1.1.symm.trans hpass)
  have hmatches := not_not.mp h.2.1
  unfold ProtectiveAssessment.Fields.matches at hmatches
  rw [Bool.and_eq_true, List.all_cons, Bool.and_eq_true] at hmatches
  have hquantity : a.quantity = _canonical v.quantity := (repeats_eq_true hmatches.1.1).2.1
  obtain ⟨⟨pref, -, ptarget⟩, -⟩ := setup.facts
  have hq := holds_decimalPattern hsize.quantity
  have hentry := Sizing.holds_raised pref
  have htarget := Sizing.holds_lowered ptarget
  have hgain := hq.mul Sizing.precision_pos (htarget.sub Sizing.precision_pos hentry (by decide))
    (by decide)
  have hentryFee := (hq.mul Sizing.precision_pos hentry (by decide)).mul Sizing.precision_pos
    Sizing.holds_feeRate (by decide)
  have htargetFee := (hq.mul Sizing.precision_pos htarget (by decide)).mul Sizing.precision_pos
    Sizing.holds_feeRate (by decide)
  have hfirst := (hgain.mono (by decide : 84 ≤ 88) le_rfl).sub Sizing.precision_pos
    (hentryFee.mono le_rfl (by decide : 82 ≤ 83)) (by decide)
  have hnet := hfirst.sub Sizing.precision_pos (htargetFee.mono le_rfl (by decide : 82 ≤ 84))
    (by decide)
  dsimp only at hreward
  rw [Decimal.le_def, hnet.value, Decimal.toRat_zero, not_le] at hreward
  refine ⟨hlimit, ?_, hreward⟩
  rw [hquantity, hvq]
  exact Decimal.fixed_ofText_unsigned (by decide) hsize.quantity

/-- What has passed the gate keeps every limit. -/
theorem ProtectiveAssessment.sound (a : ProtectiveAssessment)
    (hequity : decimalPattern a.limitAssessment.positionSize.request.portfolio.equityQuote)
    (hpass : a.status = .pass) : ∃ setup, a.limitAssessment.positionSize.Facts setup ∧
      (a.limitAssessment.positionSize.terms setup).Sound := by
  obtain ⟨setup, hsize⟩ := a.limitAssessment.positionSize.facts hequity
  obtain ⟨hlimit, -, hreward⟩ := a.passed hsize hpass
  obtain ⟨hnotional, hcash⟩ := a.limitAssessment.passed hsize hequity hlimit
  obtain ⟨-, -, hstop, htarget⟩ := setup.facts
  exact ⟨setup, hsize, hsize.quantity_pos, hsize.loss, hnotional, hcash, hstop, htarget, hreward⟩

structure ApprovedEntry (r : RiskRequest) (s : ManagedPortfolioState) (k : KillSwitchState)
    (c : CircuitAssessment) (p : ProtectiveAssessment) (quantity : Option String)
    (setup : LongSetup) : Prop where
  killSwitch : k.active = false
  consumed : k.lastCircuitSha256 = some c.circuitSha256 ∧
    k.lastCircuitTimeMs = some s.decisionTimeMs
  /-- The circuit evidence is about this state, and the state raises no breaker. -/
  circuit : c.request = r ∧ c.managedState = s ∧ r.portfolio = s.toRiskState false ∧
    c.triggeredBreakers = [] ∧ Circuit.triggered s r.policy = []
  evidence : r.evidenceLabel = .qualifiedForP4Research
  setup_eq : r.strategyDecision.setup = some setup
  passed : p.status = .pass ∧ p.limitAssessment.status = .pass
  request : p.limitAssessment.positionSize.request = r
  quantity : quantity = some p.quantity ∧ p.quantity = p.limitAssessment.positionSize.quantity
  lossPerUnit : (ofText p.limitAssessment.positionSize.lossPerUnitQuote).toRat =
    (p.limitAssessment.positionSize.terms setup).lossPerUnit
  sound : (p.limitAssessment.positionSize.terms setup).Sound

namespace RiskAdapter

variable {d : RiskDecision} {r : RiskRequest}

theorem decide_eq_ok {f : RiskDecision.Fields} (h : _decide f = .ok d) :
    d.toFields = f := by
  unfold _decide RiskDecision.build at h
  cases hc : construct f.postInit (fun h => (⟨f, h⟩ : RiskDecision)) with
  | error e =>
    rw [hc] at h
    cases h
  | ok d' =>
    rw [hc] at h
    obtain ⟨_, rfl⟩ := construct_eq_ok.mp hc
    cases h
    rfl

theorem reject_ne_approve {reason : RiskReason}
    (h : _reject r reason = .ok d) : d.disposition ≠ .approvePaper := by
  rw [decide_eq_ok h]
  exact nofun

variable {s : ManagedPortfolioState} {k : KillSwitchState} {c : CircuitAssessment}

/-- The one way to the approval of an entry. -/
theorem approved_of_decisionFor {p : Option ProtectiveAssessment}
    (h : _decisionFor r s k c p = .ok d) (ha : r.strategyDecision.action = .enterLong)
    (hd : d.disposition = .approvePaper) :
    (c.request = r ∧ c.managedState = s) ∧ r.portfolio.killSwitchActive = k.active ∧
      (k.lastCircuitSha256 = some c.circuitSha256 ∧
        k.lastCircuitTimeMs = some s.decisionTimeMs) ∧
      k.active = false ∧ r.evidenceLabel = .qualifiedForP4Research ∧ c.triggeredBreakers = [] ∧
      ∃ q, p = some q ∧ q.limitAssessment.positionSize.request = r ∧ q.status = .pass ∧
        d.approvedQuantity = some q.quantity := by
  unfold _decisionFor at h
  simp only [raiseIf_bind_eq_ok, not_or, not_not] at h
  obtain ⟨hcircuit, hkill, hrequest, h⟩ := h
  rw [ha] at h
  simp only [raiseIf_bind_eq_ok, not_or, not_not] at h
  obtain ⟨hconsumed, -, h⟩ := h
  split at h
  · exact (reject_ne_approve h hd).elim
  rename_i hactive
  split at h
  · exact (reject_ne_approve h hd).elim
  rename_i hevidence
  split at h
  · exact (reject_ne_approve h hd).elim
  rename_i hbreakers
  cases p with
  | none => exact (reject_ne_approve h hd).elim
  | some q =>
    dsimp only at h
    split at h
    · exact (reject_ne_approve h hd).elim
    rename_i hstatus
    have hq : q.limitAssessment.positionSize.request = r := by
      by_contra hne
      exact hrequest (decide_eq_true hne)
    refine ⟨hcircuit, hkill, hconsumed, by simpa using hactive, not_not.mp hevidence,
      not_not.mp hbreakers, q, rfl, hq, not_not.mp hstatus, ?_⟩
    rw [decide_eq_ok h]

/-- An entry that meets all conditions is approved. -/
theorem decisionFor_entry {q : ProtectiveAssessment}
    (ha : r.strategyDecision.action = .enterLong) (hcircuit : c.request = r ∧ c.managedState = s)
    (hkill : r.portfolio.killSwitchActive = k.active)
    (hconsumed : k.lastCircuitSha256 = some c.circuitSha256 ∧
      k.lastCircuitTimeMs = some s.decisionTimeMs)
    (hactive : k.active = false) (hevidence : r.evidenceLabel = .qualifiedForP4Research)
    (hbreakers : c.triggeredBreakers = []) (hrequest : q.limitAssessment.positionSize.request = r)
    (hpass : q.status = .pass)
    (hd : d.toFields = ⟨r, .approvePaper, .riskChecksPassed, some q.quantity⟩) :
    _decisionFor r s k c (some q) = .ok d := by
  have hbuild : _decide ⟨r, .approvePaper, .riskChecksPassed, some q.quantity⟩ = .ok d := by
    rw [← hd]
    unfold _decide RiskDecision.build
    rw [construct_of_ok d.valid]
    rfl
  unfold _decisionFor
  rw [raiseIf_neg (by simp [hcircuit]), ok_bind, raiseIf_neg (by simp [hkill]), ok_bind,
    raiseIf_neg (by simp [hrequest]), ok_bind, ha]
  dsimp only
  rw [raiseIf_neg (by simp [hconsumed]), ok_bind, raiseIf_neg (by simp [hbreakers]), ok_bind,
    hactive, if_neg Bool.false_ne_true, if_neg (not_not.mpr hevidence),
    if_neg (not_not.mpr hbreakers), if_neg (not_not.mpr hpass), hbuild]

end RiskAdapter

theorem CircuitAssessment.bound (c : CircuitAssessment) :
    c.request.portfolio = c.managedState.toRiskState c.request.portfolio.killSwitchActive ∧
      c.triggeredBreakers = Circuit.triggered c.managedState c.request.policy := by
  have h := c.valid
  unfold CircuitAssessment.Fields.postInit at h
  obtain ⟨v, hv, h⟩ := bind_eq_ok.mp h
  unfold Circuit._values at hv
  dsimp only at hv
  rw [raiseIf_bind_eq_ok, not_not] at hv
  obtain ⟨hportfolio, hv⟩ := hv
  cases hv
  rw [raiseIf_bind_eq_ok, not_or, not_or, not_not, not_not, not_not] at h
  exact ⟨hportfolio, h.1.2.2⟩

def flatState : ManagedPortfolioState where
  symbol := .btcusdt
  sequence := 1
  decisionTimeMs := 14400000
  sessionStartTimeMs := 10800000
  sessionStartEquityQuote := "10000"
  equityQuote := "10000"
  cashQuote := "10000"
  positionQuantity := "0"
  markPrice := "100"
  peakEquityQuote := "10000"
  sessionRealizedPnlQuote := "0"
  consecutiveLosses := 0
  openPositions := 0
  grossExposureQuote := "0"
  previousStateSha256 := some (String.ofList (List.replicate 64 '0'))
  observationSha256 := String.ofList (List.replicate 64 '0')
  valid := by decide +kernel

def plainSetup : LongSetup := ⟨⟨"100", "90", "120"⟩, by decide +kernel⟩

def earliestEntry : StrategyDecision where
  context := .of trendPullbackIdentity .earliest
  action := .enterLong
  reason := .trendPullbackEntry
  setup := some plainSetup
  valid := by decide

def entryRequest : RiskRequest where
  strategyDecision := earliestEntry
  evidenceLabel := .qualifiedForP4Research
  portfolio := flatState.toRiskState false
  valid := by decide

def clearCircuit : CircuitAssessment where
  request := entryRequest
  managedState := flatState
  disposition := .clear
  reason := .withinLimits
  triggeredBreakers := []
  sessionLossQuote := "0"
  sessionLossLimitQuote := "200.00"
  drawdownQuote := "0"
  drawdownLimitQuote := "1000.00"
  consecutiveLosses := 0
  consecutiveLossLimit := 3
  valid := by decide +kernel

theorem postInit_manualReset {circuit zeros : String} {time : ℤ} (htime : 0 ≤ time)
    (hcircuit : Sha256.isHexDigest circuit = true) (hzeros : Sha256.isHexDigest zeros = true) :
    KillSwitchState.Fields.postInit ⟨.inactive, .manualReset, 1, time, [], some time,
      some circuit, some zeros, zeros⟩ = .ok () := by
  unfold KillSwitchState.Fields.postInit
  simp [KillSwitchState.Fields.consistent, hcircuit, hzeros, _breakerOrder, htime]

/-- The switch after it was reset with the circuit evidence. -/
def resetSwitch : KillSwitchState where
  mode := .inactive
  reason := .manualReset
  sequence := 1
  eventTimeMs := 14400000
  triggeredBreakers := []
  lastCircuitTimeMs := some 14400000
  lastCircuitSha256 := some clearCircuit.circuitSha256
  previousStateSha256 := some (String.ofList (List.replicate 64 '0'))
  eventSha256 := String.ofList (List.replicate 64 '0')
  valid := postInit_manualReset (by decide) (Json.isHexDigest_sha256 _) (by decide)

def sizedEntry : PositionSize where
  request := entryRequest
  quantity := "9.722892"
  riskBudgetQuote := "100.00"
  entryExecutionPrice := "100.0500"
  stopExecutionPrice := "89.9550"
  lossPerUnitQuote := "10.2850050"
  plannedLossQuote := "99.9999928344600"
  feeQuote := "1.8473980944600"
  slippageQuote := "0.9236747400"
  valid := by decide +kernel

def limitedEntry : EntryLimitAssessment where
  positionSize := sizedEntry
  status := .pass
  reason := .withinLimits
  entryNotionalQuote := "972.7753446000"
  entryFeeQuote := "0.9727753446"
  cashRequiredQuote := "973.7481199446"
  positionLimitQuote := "2500.00"
  grossExposureBeforeQuote := "0"
  grossExposureAfterQuote := "972.7753446000"
  grossExposureLimitQuote := "2500.00"
  valid := by decide +kernel

def protectedEntry : ProtectiveAssessment where
  limitAssessment := limitedEntry
  status := .pass
  reason := .protectiveGatePassed
  quantity := "9.722892"
  referenceEntryPrice := "100"
  referenceStopPrice := "90"
  referenceTargetPrice := "120"
  entryExecutionPrice := "100.0500"
  stopExecutionPrice := "89.9550"
  targetExecutionPrice := "119.9400"
  entryFeeQuote := "0.9727753446000"
  stopFeeQuote := "0.8746227498600"
  targetFeeQuote := "1.1661636664800"
  worstLossQuote := "99.9999928344600"
  riskBudgetQuote := "100.00"
  netRewardQuote := "191.2493828689200"
  valid := by decide +kernel

def entryDecision : RiskDecision where
  request := entryRequest
  disposition := .approvePaper
  reason := .riskChecksPassed
  approvedQuantity := some "9.722892"
  valid := by decide +kernel

theorem decisionFor_earliest : RiskAdapter._decisionFor entryRequest flatState resetSwitch
    clearCircuit (some protectedEntry) = .ok entryDecision :=
  RiskAdapter.decisionFor_entry rfl ⟨rfl, rfl⟩ rfl ⟨rfl, rfl⟩ rfl rfl rfl rfl rfl rfl

/-- **Authorization soundness.** -/
theorem authorization_soundness {r : RiskRequest} {s : ManagedPortfolioState} {k : KillSwitchState}
    {c : CircuitAssessment} {p : Option ProtectiveAssessment} {a : RiskAuthorization}
    (h : authorizePaperRequest r s k c p = .ok a) (ha : r.strategyDecision.action = .enterLong)
    (hd : a.decision.disposition = .approvePaper) :
    ∃ q setup, p = some q ∧ ApprovedEntry r s k c q a.decision.approvedQuantity setup := by
  obtain ⟨⟨hcr, hcs⟩, hkill, hconsumed, hactive, hevidence, hbreakers, q, hp, hrequest, hpass,
    hquantity⟩ := RiskAdapter.approved_of_decisionFor (RiskAdapter.authorize_eq_ok h) ha hd
  obtain ⟨hbound, htriggered⟩ := c.bound
  rw [hcr, hcs, hkill, hactive] at hbound
  rw [hcr, hcs, hbreakers] at htriggered
  have hfacts := s.facts
  have hequity : decimalPattern q.limitAssessment.positionSize.request.portfolio.equityQuote := by
    rw [hrequest, hbound]
    exact hfacts.equity.1
  obtain ⟨setup, hsize, hsound⟩ := q.sound hequity hpass
  obtain ⟨hlimit, hsame, -⟩ := q.passed hsize hpass
  refine ⟨q, setup, hp, ?_⟩
  exact {
    killSwitch := hactive
    consumed := hconsumed
    circuit := ⟨hcr, hcs, hbound, hbreakers, htriggered.symm⟩
    evidence := hevidence
    setup_eq := by
      rw [← hrequest]
      exact hsize.setup_eq
    passed := ⟨hpass, hlimit⟩
    request := hrequest
    quantity := ⟨hquantity, hsame⟩
    lossPerUnit := hsize.lossPerUnit
    sound := hsound }

theorem authorization_soundness_earliest :
    ApprovedEntry entryRequest flatState resetSwitch clearCircuit protectedEntry (some "9.722892")
      plainSetup := by
  obtain ⟨a, ha, hdecision⟩ := RiskAdapter.authorize_of_decision decisionFor_earliest
  obtain ⟨q, setup, hq, happroved⟩ :=
    authorization_soundness ha rfl (by rw [hdecision]; rfl)
  cases hq
  have hsetup : some plainSetup = some setup := happroved.setup_eq
  cases hsetup
  rw [hdecision] at happroved
  exact happroved

end TradingLab
