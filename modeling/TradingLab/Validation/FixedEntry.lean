import TradingLab.Validation.PaperRunner

/-!
# The veto of the fixed quantity

A forward run buys one fixed quantity and asks the limits of the risk adapter
about it, in computations of its own. None of them rounds, so the veto decides
about the exact numbers, and what the adapter sizes no smaller it allows.
-/

namespace TradingLab

open Decimal (ofText Holds)
open Sizing (precision_pos holds_raised holds_lowered)

namespace EntryTerms
variable {t : EntryTerms}

def withQuantity (t : EntryTerms) (quantity : ℚ) : EntryTerms := { t with quantity }

theorem netReward_eq : t.netReward = t.quantity * (t.targetExecution - t.entryExecution -
    t.entryExecution * (10 / 10000) - t.targetExecution * (10 / 10000)) := by
  unfold netReward notional
  ring

/-- The levels as they are executed, of an entry with a positive reward. -/
theorem Sound.levels (h : t.Sound) (hstop : 0 < t.stop) : 0 < t.stopExecution ∧
    t.stopExecution < t.entryExecution ∧ t.entryExecution < t.targetExecution := by
  have hentry := hstop.trans h.stop_lt_entry
  have htarget := hentry.trans h.entry_lt_target
  have hlevels : 0 < t.stopExecution ∧ t.stopExecution < t.entryExecution ∧
      0 < t.targetExecution := by
    unfold stopExecution entryExecution targetExecution
    have := h.stop_lt_entry
    refine ⟨by linarith, by linarith, by linarith⟩
  have hreward := h.reward
  rw [netReward_eq] at hreward
  have hunit := (mul_pos_iff_of_pos_left h.quantity_pos).mp hreward
  exact ⟨hlevels.1, hlevels.2.1, by linarith⟩

/-- What is sound stays so with a smaller quantity: every limit grows with it. -/
theorem Sound.withQuantity (h : t.Sound) (hstop : 0 < t.stop) {quantity : ℚ} (h0 : 0 < quantity)
    (hle : quantity ≤ t.quantity) : (t.withQuantity quantity).Sound := by
  obtain ⟨hstop', hentry, htarget⟩ := h.levels hstop
  have hloss : 0 ≤ t.lossPerUnit := by
    unfold lossPerUnit
    linarith
  have hnotional : quantity * t.entryExecution ≤ t.notional :=
    mul_le_mul_of_nonneg_right hle (hstop'.trans hentry).le
  refine ⟨h0, ?_, hnotional.trans h.notional, ?_, h.stop_lt_entry, h.entry_lt_target, ?_⟩
  · exact (mul_le_mul_of_nonneg_right hle hloss).trans h.loss
  · refine le_trans ?_ h.cash
    change quantity * t.entryExecution + quantity * t.entryExecution * 10 / 10000 ≤
      t.notional + t.notional * 10 / 10000
    linarith
  · have hreward := h.reward
    rw [netReward_eq] at hreward ⊢
    exact mul_pos h0 ((mul_pos_iff_of_pos_left h.quantity_pos).mp hreward)

end EntryTerms

/-- The numbers of a managed portfolio, as a forward run holds them. -/
def ValidationRiskState.ofManaged (s : ManagedPortfolioState) (killSwitchActive : Bool) :
    ValidationRiskState where
  symbol := s.symbol
  equityQuote := s.equityQuote
  cashQuote := s.cashQuote
  positionQuantity := s.positionQuantity
  markPrice := s.markPrice
  peakEquityQuote := s.peakEquityQuote
  sessionStartTimeMs := s.sessionStartTimeMs
  sessionStartEquityQuote := s.sessionStartEquityQuote
  sessionRealizedPnlQuote := s.sessionRealizedPnlQuote
  consecutiveLosses := s.consecutiveLosses
  openPositions := s.openPositions
  killSwitchActive := killSwitchActive

namespace EntryVeto

/-- The fixed quantity at the levels of a setup. -/
def fixedTerms (setup : LongSetup) (s : ManagedPortfolioState) : EntryTerms where
  quantity := 1 / 1000
  entry := (ofText setup.referencePrice).toRat
  stop := (ofText setup.invalidationPrice).toRat
  target := (ofText setup.targetPrice).toRat
  equity := (ofText s.equityQuote).toRat
  cash := (ofText s.cashQuote).toRat

theorem holds_quantity : Holds 3 0 quantity (1 / 1000) := by
  have htext : quantity = ⟨false, 1, -3⟩ := by decide +kernel
  rw [htext]
  exact ⟨by norm_num [Decimal.toRat, Decimal.int], ⟨1, by norm_num⟩, by norm_num [abs_of_pos]⟩

theorem bought_eq (price : Decimal) : bought price = Sizing.raised price := by
  have hrate : slippageRate = Sizing.slippageRate := by decide +kernel
  rw [bought, hrate]
  rfl

theorem sold_eq (price : Decimal) : sold price = Sizing.lowered price := by
  have hrate : slippageRate = Sizing.slippageRate := by decide +kernel
  rw [sold, hrate]
  rfl

theorem holds_fee {execution : Decimal} {q : ℚ} (h : Holds 44 42 execution q) :
    Holds 51 42 (fee execution) (1 / 1000 * q * (10 / 10000)) := by
  have hrate : feeRate = Sizing.feeRate := by decide +kernel
  rw [fee, hrate]
  exact (holds_quantity.mul precision_pos h (by decide)).mul precision_pos Sizing.holds_feeRate
    (by decide)

theorem holds_quarter (policy : RiskPolicy) :
    Holds 2 0 (ofText policy.maxPositionFraction) (1 / 4) ∧
      Holds 2 0 (ofText policy.maxGrossExposureFraction) (1 / 4) := by
  have htext : ofText RiskPolicy.frozen.maxPositionFraction = ⟨false, 25, -2⟩ ∧
      ofText RiskPolicy.frozen.maxGrossExposureFraction = ⟨false, 25, -2⟩ := by decide +kernel
  have hholds : Holds 2 0 (⟨false, 25, -2⟩ : Decimal) (1 / 4) :=
    ⟨by norm_num [Decimal.toRat, Decimal.int], ⟨25, by norm_num⟩, by norm_num [abs_of_pos]⟩
  rw [policy.eq_frozen, htext.1, htext.2]
  exact ⟨hholds, hholds⟩

/-- The numbers a veto compares are exact. -/
structure Exact (a : Amounts) (t : EntryTerms) (grossBefore : ℚ) : Prop where
  cash : a.cash.toRat = t.cash
  entryExecution : a.entryExecution.toRat = t.entryExecution
  stopExecution : a.stopExecution.toRat = t.stopExecution
  targetExecution : a.targetExecution.toRat = t.targetExecution
  plannedLoss : a.plannedLoss.toRat = t.quantity * t.lossPerUnit
  riskBudget : a.riskBudget.toRat = t.equity / 100
  entryNotional : a.entryNotional.toRat = t.notional
  cashRequired : a.cashRequired.toRat = t.cashRequired
  positionLimit : a.positionLimit.toRat = t.equity / 4
  grossAfter : a.grossAfter.toRat = grossBefore + t.notional
  grossLimit : a.grossLimit.toRat = t.equity / 4
  netReward : a.netReward.toRat = t.netReward

theorem exact_amounts (setup : LongSetup) (s : ManagedPortfolioState) (active : Bool)
    (policy : RiskPolicy) : Exact (amounts setup (.ofManaged s active) policy)
      (fixedTerms setup s) ((ofText s.positionQuantity).toRat * (ofText s.markPrice).toRat) := by
  obtain ⟨⟨hreference, hinvalidation, htarget⟩, -⟩ := setup.facts
  have hs := s.facts
  have hp : 0 < decimalPrecision := by decide
  have hbought := holds_raised hreference
  have hstop := holds_lowered hinvalidation
  have hsold := holds_lowered htarget
  rw [← bought_eq] at hbought
  rw [← sold_eq] at hstop hsold
  have hnotional := holds_quantity.mul hp hbought (by decide)
  have hgap := (holds_quantity.mul hp (hbought.sub hp hstop (by decide))
    (by decide)).mono (by decide : 47 ≤ 51) le_rfl
  have hgain := (holds_quantity.mul hp (hsold.sub hp hbought (by decide))
    (by decide)).mono (by decide : 47 ≤ 51) le_rfl
  have hentryFee := (holds_fee hbought).mono le_rfl (by decide : 42 ≤ 43)
  have hbudget := Sizing.holds_riskBudget hs.equity.1 policy
  have hlimit := (holds_decimalPattern hs.equity.1).mul hp (holds_quarter policy).1
    (by decide)
  have hgrossLimit := (holds_decimalPattern hs.equity.1).mul hp (holds_quarter policy).2
    (by decide)
  have hbefore := (holds_decimalPattern hs.quantity).mul hp
    (holds_decimalPattern hs.mark.1) (by decide)
  have hgross := hbefore.add hp (hnotional.mono (by decide : 47 ≤ 80) (by decide : 42 ≤ 80))
    (by decide)
  have hcash := (hnotional.mono (by decide : 47 ≤ 51) le_rfl).add hp (holds_fee hbought)
    (by decide)
  have hloss := (hgap.add hp hentryFee (by decide)).add hp
    ((holds_fee hstop).mono le_rfl (by decide : 42 ≤ 44)) (by decide)
  have hreward := (hgain.sub hp hentryFee (by decide)).sub hp
    ((holds_fee hsold).mono le_rfl (by decide : 42 ≤ 44)) (by decide)
  constructor <;> dsimp only [amounts, fixedTerms, ValidationRiskState.ofManaged,
    EntryTerms.entryExecution, EntryTerms.stopExecution, EntryTerms.targetExecution]
  · exact hbought.value
  · exact hstop.value
  · exact hsold.value
  · rw [hloss.value, EntryTerms.lossPerUnit]
    dsimp only [EntryTerms.entryExecution, EntryTerms.stopExecution]
    ring
  · exact hbudget.value
  · exact hnotional.value
  · rw [hcash.value, EntryTerms.cashRequired, EntryTerms.notional]
    dsimp only [EntryTerms.entryExecution]
    ring
  · rw [hlimit.value, mul_one_div]
  · exact hgross.value
  · rw [hgrossLimit.value, mul_one_div]
  · rw [hreward.value, EntryTerms.netReward, EntryTerms.notional]
    rfl

section
variable {setup : LongSetup} {s : ManagedPortfolioState} {active : Bool} {policy : RiskPolicy}

/-- The breakers of the circuit are those of the veto. -/
theorem triggered_eq_nil_iff : Circuit.triggered s policy = [] ↔
    ∀ reason ∈ [EntryVetoReason.sessionLossLimit, .drawdownLimit, .consecutiveLossLimit],
      applies (amounts setup (.ofManaged s active) policy) (.ofManaged s active) policy reason =
        false := by
  unfold Circuit.triggered
  rw [List.map_eq_nil_iff, List.filter_eq_nil_iff]
  simp only [List.forall_mem_cons, List.not_mem_nil, false_implies, implies_true, and_true,
    Bool.not_eq_true]
  rfl

/-- The veto speaks about the exact numbers of the fixed quantity. -/
theorem reasons_eq_nil_iff :
    EntryVetoReason.all.filter (applies (amounts setup (.ofManaged s active) policy)
      (.ofManaged s active) policy) = [] ↔
    active = false ∧ Circuit.triggered s policy = [] ∧ s.openPositions < policy.maxOpenPositions ∧
      (ofText s.positionQuantity).toRat * (ofText s.markPrice).toRat +
        (fixedTerms setup s).notional ≤ (fixedTerms setup s).equity / 4 ∧
      (fixedTerms setup s).Sound := by
  have hexact := exact_amounts setup s active policy
  obtain ⟨-, hstop, hentry, htarget⟩ := setup.facts
  rw [Decimal.lt_def, Decimal.toRat_zero] at hstop
  rw [@triggered_eq_nil_iff setup s active policy, List.filter_eq_nil_iff]
  simp only [EntryVetoReason.all, List.forall_mem_cons, List.not_mem_nil, false_implies,
    implies_true, and_true, Bool.not_eq_true]
  simp only [applies, decide_eq_false_iff_not, Decimal.lt_def, Decimal.le_def, Decimal.toRat_zero,
    not_lt, not_le, not_not, hexact.cash, hexact.entryExecution, hexact.stopExecution,
    hexact.targetExecution, hexact.plannedLoss, hexact.riskBudget, hexact.entryNotional,
    hexact.cashRequired, hexact.positionLimit, hexact.grossAfter, hexact.grossLimit,
    hexact.netReward]
  constructor
  · rintro ⟨hactive, hsession, hdrawdown, hlosses, hpositions, hcash, hnotional, hgross, hloss, -,
      hreward⟩
    exact ⟨hactive, ⟨hsession, hdrawdown, hlosses⟩, hpositions, hgross, by norm_num [fixedTerms],
      hloss, hnotional, hcash, hentry, htarget, hreward⟩
  · rintro ⟨hactive, ⟨hsession, hdrawdown, hlosses⟩, hpositions, hgross, hsound⟩
    exact ⟨hactive, hsession, hdrawdown, hlosses, hpositions, hsound.cash, hsound.notional, hgross,
      hsound.loss, hsound.levels hstop, hsound.reward⟩

theorem assess_eq_ok {decision : StrategyDecision} {v : EntrySafetyVeto}
    (h : assessFixedQuantityEntry decision (.ofManaged s active) policy = .ok v) :
    ∃ setup, decision.setup = some setup ∧
      v.reasons = EntryVetoReason.all.filter (applies (amounts setup (.ofManaged s active) policy)
        (.ofManaged s active) policy) := by
  unfold assessFixedQuantityEntry at h
  split at h
  · cases h
  · rename_i setup hsetup
    rw [raiseIf_bind_eq_ok] at h
    cases h.2
    exact ⟨setup, hsetup, rfl⟩

theorem exists_assess {decision : StrategyDecision} (hsetup : decision.setup = some setup)
    (haction : decision.action = .enterLong) :
    ∃ v, assessFixedQuantityEntry decision (.ofManaged s active) policy = .ok v := by
  unfold assessFixedQuantityEntry
  rw [hsetup]
  dsimp only
  rw [raiseIf_neg (by simp [haction, runnerQuantity, fixedResearchQuantity])]
  exact ⟨_, rfl⟩

end

end EntryVeto

section
variable {r : RiskRequest} {s : ManagedPortfolioState} {size : PositionSize}
  {limit : EntryLimitAssessment} {gate : ProtectiveAssessment} {c : CircuitAssessment}

/-- What is sized asks for an entry of a flat portfolio. -/
theorem eligible_of_sizeEntry (h : sizeEntry r = .ok size) : size.request = r ∧
    r.strategyDecision.action = .enterLong ∧ r.portfolio.killSwitchActive = false ∧
      r.portfolio.openPositions = 0 := by
  unfold sizeEntry at h
  obtain ⟨v, hv, h⟩ := bind_eq_ok.mp h
  obtain ⟨_, rfl⟩ := construct_eq_ok.mp h
  unfold Sizing._entryValues at hv
  dsimp only at hv
  split at hv
  · cases hv
  · rw [raiseIf_bind_eq_ok] at hv
    simp only [not_or, not_not, Bool.not_eq_true] at hv
    exact ⟨rfl, hv.1.1, hv.1.2.2.1, hv.1.2.2.2⟩

theorem positionSize_of_assessEntryLimits (h : assessEntryLimits size = .ok limit) :
    limit.positionSize = size := by
  unfold assessEntryLimits at h
  obtain ⟨v, -, h⟩ := bind_eq_ok.mp h
  obtain ⟨_, rfl⟩ := construct_eq_ok.mp h
  rfl

theorem limitAssessment_of_assessProtectiveEntry (h : assessProtectiveEntry limit = .ok gate) :
    gate.limitAssessment = limit := by
  unfold assessProtectiveEntry at h
  obtain ⟨v, -, h⟩ := bind_eq_ok.mp h
  obtain ⟨_, rfl⟩ := construct_eq_ok.mp h
  rfl

end

/-- The veto of the fixed quantity and the limits of the adapter agree. -/
theorem fixed_entry_agrees (s : ManagedPortfolioState) :
    (∀ r size limit gate c, sizeEntry r = .ok size → assessEntryLimits size = .ok limit →
      limit.status = .pass → assessProtectiveEntry limit = .ok gate → gate.status = .pass →
      assessCircuitBreakers r s = .ok c → c.triggeredBreakers = [] →
      1 / 1000 ≤ (ofText size.quantity).toRat →
      ∃ v, assessFixedQuantityEntry r.strategyDecision
        (.ofManaged s r.portfolio.killSwitchActive) r.policy = .ok v ∧ v.allowed = true) ∧
    ∀ decision active policy v,
      assessFixedQuantityEntry decision (.ofManaged s active) policy = .ok v → v.allowed = true →
      ∃ setup, decision.setup = some setup ∧ (EntryVeto.fixedTerms setup s).Sound ∧
        Circuit.triggered s policy = [] := by
  constructor
  · intro r size limit gate c hsize hlimit hlimited hgate hpassed hcircuit hclear hquantity
    obtain ⟨rfl, haction, hactive, hpositions⟩ := eligible_of_sizeEntry hsize
    obtain rfl := positionSize_of_assessEntryLimits hlimit
    obtain rfl := limitAssessment_of_assessProtectiveEntry hgate
    obtain ⟨values, -, hfields⟩ := Circuit.assess_eq_ok.mp hcircuit
    have hrequest : c.request = gate.limitAssessment.positionSize.request :=
      congrArg (·.request) hfields
    have hmanaged : c.managedState = s := congrArg (·.managedState) hfields
    obtain ⟨hportfolio, htriggered⟩ := c.bound
    rw [hrequest, hmanaged] at hportfolio htriggered
    have hequity : decimalPattern
        gate.limitAssessment.positionSize.request.portfolio.equityQuote := by
      rw [hportfolio]
      exact s.facts.equity.1
    obtain ⟨setup, hfacts, hsound⟩ := gate.sound hequity hpassed
    have hstop := setup.facts.2.1
    rw [Decimal.lt_def, Decimal.toRat_zero] at hstop
    have hfixed : EntryVeto.fixedTerms setup s =
        (gate.limitAssessment.positionSize.terms setup).withQuantity (1 / 1000) := by
      unfold EntryTerms.withQuantity PositionSize.terms
      rw [hportfolio]
      rfl
    have hsmaller := hsound.withQuantity hstop (by norm_num) hquantity
    rw [← hfixed] at hsmaller
    -- The portfolio is flat, so all its exposure is that of the entry.
    have hopen : s.openPositions = 0 := by
      rw [hportfolio] at hpositions
      exact hpositions
    have hbefore : (ofText s.positionQuantity).toRat = 0 := by
      rw [← Decimal.toRat_zero]
      exact Decimal.equiv_def.mp (s.facts.flat.mpr hopen)
    obtain ⟨v, hv⟩ := EntryVeto.exists_assess (s := s) hfacts.setup_eq haction
    obtain ⟨setup', hsetup', hreasons⟩ := EntryVeto.assess_eq_ok hv
    have hsame : setup' = setup := Option.some.inj (hsetup'.symm.trans hfacts.setup_eq)
    refine ⟨v, hv, ?_⟩
    rw [EntrySafetyVeto.allowed, List.isEmpty_iff, hreasons, EntryVeto.reasons_eq_nil_iff, hsame,
      hbefore, hopen, RiskPolicy.eq_frozen gate.limitAssessment.positionSize.request.policy]
    refine ⟨hactive, ?_, by decide, ?_, hsmaller⟩
    · rw [← RiskPolicy.eq_frozen gate.limitAssessment.positionSize.request.policy, ← htriggered]
      exact hclear
    · rw [zero_mul, zero_add]
      exact hsmaller.notional
  · intro decision active policy v hassess hallowed
    obtain ⟨setup, hsetup, hreasons⟩ := EntryVeto.assess_eq_ok hassess
    rw [EntrySafetyVeto.allowed, List.isEmpty_iff, hreasons, EntryVeto.reasons_eq_nil_iff] at hallowed
    obtain ⟨-, hclear, -, -, hsound⟩ := hallowed
    exact ⟨setup, hsetup, hsound, hclear⟩

theorem fixed_entry_agrees_earliest : sizeEntry entryRequest = .ok sizedEntry ∧
    ∃ v, assessFixedQuantityEntry earliestEntry (.ofManaged flatState false) .frozen = .ok v ∧
      v.allowed = true ∧ (EntryVeto.fixedTerms plainSetup flatState).Sound ∧
        Circuit.triggered flatState .frozen = [] := by
  have hsize : sizeEntry entryRequest = .ok sizedEntry := by decide +kernel
  obtain ⟨v, hv, hallowed⟩ := (fixed_entry_agrees flatState).1 entryRequest sizedEntry limitedEntry
    protectedEntry clearCircuit hsize (by decide +kernel) rfl (by decide +kernel) rfl
    (by decide +kernel) rfl (by decide +kernel)
  obtain ⟨setup, hsetup, hsound⟩ := (fixed_entry_agrees flatState).2 _ _ _ v hv hallowed
  cases hsetup
  exact ⟨hsize, v, hv, hallowed, hsound⟩

end TradingLab
