import TradingLab.Risk.Adapter

/-!
# Approval of exits

An exit reduces risk, so neither the breakers nor the kill switch may stop it.
They do not; what can stop it is the evidence itself. Two of the limits are a
plain decimal text times a two-digit fraction, and their own text has two digits
more after the point than the text they come from. A state whose equity is
written with thirty-nine or forty digits after the point is accepted, but the
circuit evidence about it is not.
-/

namespace TradingLab

open RiskState (_canonical precision)
open Decimal (ofText fractionDigits)

namespace Circuit

theorem precision_pos : 0 < precision := by decide

theorem exponent_eq_fractionDigits {s : String} (h : decimalPattern s) :
    (ofText s).exponent = -(fractionDigits s : ℤ) := by
  have := (decimalPattern_bounds h).2.1
  unfold fractionDigits
  omega

/-- A plain text times a two-digit fraction has a plain text when two digits are left for it. -/
theorem decimalPattern_fraction {s : String} {c : ℕ} (h : decimalPattern s) (hc : c < 100) :
    decimalPattern (_canonical (Decimal.mul precision (ofText s) ⟨false, c, -2⟩)) = true ↔
      fractionDigits s ≤ 38 := by
  obtain ⟨hlo, hhi, h0, hlt⟩ := decimalPattern_bounds h
  have hexp := exponent_eq_fractionDigits h
  set d := Decimal.mulExact (ofText s) ⟨false, c, -2⟩ with hd
  have hde : d.exponent = (ofText s).exponent - 2 := rfl
  have hdn : d.negative = false := by
    rw [hd, Decimal.mulExact, Decimal.negative_of_unsignedText (by decide) h]
    rfl
  have hval : d.toRat = (ofText s).toRat * (c / 100) := by
    rw [hd, Decimal.toRat_mulExact, Decimal.toRat_mk]
    norm_num
    rfl
  have hfrac : (c / 100 : ℚ) < 1 := by
    rw [div_lt_one (by norm_num)]
    exact_mod_cast hc
  have hfrac0 : (0 : ℚ) ≤ c / 100 := by positivity
  have hdlt : d.toRat < 10 ^ 40 := by
    rw [hval]
    nlinarith
  have hd0 : 0 ≤ d.toRat := by
    rw [hval]
    positivity
  have hlow : -((42 : ℕ) : ℤ) ≤ d.exponent := by
    push_cast
    omega
  have hround : Decimal.mul precision (ofText s) ⟨false, c, -2⟩ = d :=
    Decimal.round_eq_self precision_pos hlow (by rwa [abs_of_nonneg hd0]) (by decide)
  rw [hround]
  refine (Decimal.unsignedText_fixed (by decide) (by omega) hdn hdlt).trans ?_
  push_cast
  omega

/-- The loss of the session always has a plain text. -/
theorem decimalPattern_sessionLoss (s : ManagedPortfolioState) :
    decimalPattern (_canonical (sessionLoss s)) = true := by
  have hpnl := s.facts.pnl
  obtain ⟨hlo, hhi, hlt⟩ := Decimal.signedText_bounds (by decide) hpnl
  set pnl := ofText s.sessionRealizedPnlQuote with hp
  have hneg : ∀ d : Decimal, d.exponent = pnl.exponent → |d.toRat| < 10 ^ 40 →
      Decimal.round precision d = d := fun d he hd =>
    Decimal.round_eq_self (f := 40) (b := 40) precision_pos (by rw [he]; exact hlo) hd (by decide)
  have hzero : decimalPattern (_canonical 0) = true := by decide
  unfold sessionLoss Decimal.larger
  split
  · exact hzero
  · rename_i hge
    -- what is not below zero is either a positive number or the zero that lost its sign
    have key : ∀ d : Decimal, d.exponent = pnl.exponent → |d.toRat| < 10 ^ 40 →
        d.negative = false → decimalPattern (_canonical (Decimal.round precision d)) = true := by
      intro d he hd hn
      rw [hneg d he hd]
      refine (Decimal.unsignedText_fixed (by decide) (by omega) hn (lt_of_abs_lt hd)).mpr ?_
      rw [he]
      push_cast
      omega
    rw [← hp] at hge ⊢
    unfold Decimal.neg at hge ⊢
    split
    · exact key _ rfl (by rwa [Decimal.toRat_copyAbs, abs_abs]) rfl
    · rename_i hc
      have habs : |(Decimal.copyNegate pnl).toRat| < 10 ^ 40 := by
        rwa [Decimal.toRat_copyNegate, abs_neg]
      rw [if_neg hc, hneg (Decimal.copyNegate pnl) rfl habs, Decimal.lt_def, Decimal.toRat_zero, not_lt,
        Decimal.toRat_nonneg_iff] at hge
      rcases hge with hn | hz
      · exact key _ rfl habs hn
      · exact (hc hz).elim

/-- So has the drawdown: the peak is not below the equity. -/
theorem decimalPattern_drawdown (s : ManagedPortfolioState) :
    decimalPattern (_canonical (drawdown s)) = true := by
  obtain ⟨plo, phi, p0, plt⟩ := decimalPattern_bounds s.facts.peak.1
  obtain ⟨elo, ehi, e0, elt⟩ := decimalPattern_bounds s.facts.equity.1
  have hpe := s.facts.peak_ge
  rw [Decimal.lt_def, not_lt] at hpe
  set p := ofText s.peakEquityQuote with hp
  set e := ofText s.equityQuote with he
  set d := Decimal.addExact p (Decimal.copyNegate e) with hd
  have hval : d.toRat = p.toRat - e.toRat := by
    rw [hd, Decimal.toRat_addExact, Decimal.toRat_copyNegate]
    ring
  have hexp : d.exponent = min p.exponent e.exponent := by
    rw [hd, Decimal.addExact]
    split <;> rfl
  have hneg : d.negative = false := by
    have hpn : p.negative = false := Decimal.negative_of_unsignedText (by decide) s.facts.peak.1
    have h0 : 0 ≤ d.toRat := by
      rw [hval]
      linarith
    rcases (Decimal.toRat_nonneg_iff d).mp h0 with hn | hz
    · exact hn
    · rw [hd, Decimal.addExact] at hz ⊢
      split at hz
      · rename_i hs
        rw [if_pos hs, hpn]
        rfl
      · rename_i hs
        exact (hs (Int.natAbs_eq_zero.mp hz)).elim
  have hlt : |d.toRat| < 10 ^ 40 := by
    rw [hval, abs_of_nonneg (by linarith)]
    linarith
  have hlow : -((40 : ℕ) : ℤ) ≤ d.exponent := by
    push_cast
    omega
  have hround : drawdown s = d :=
    Decimal.round_eq_self precision_pos hlow hlt (by decide)
  rw [hround]
  refine (Decimal.unsignedText_fixed (by decide) (by omega) hneg (lt_of_abs_lt hlt)).mpr ?_
  push_cast
  omega

theorem values_of_bound {r : RiskRequest} {s : ManagedPortfolioState}
    (h : r.portfolio = s.toRiskState r.portfolio.killSwitchActive) :
    ∃ v, _values r s = .ok v ∧ v.sessionLossQuote = sessionLoss s ∧
      v.sessionLossLimitQuote = sessionLimit s r.policy ∧ v.drawdownQuote = drawdown s ∧
      v.drawdownLimitQuote = drawdownLimit s r.policy := by
  unfold _values
  dsimp only
  rw [raiseIf_neg (by rw [not_not]; exact h), ok_bind]
  exact ⟨_, rfl, rfl, rfl, rfl, rfl⟩

/-- Whether the evidence can be built depends on two texts of the state only. -/
theorem assess_ok_iff {r : RiskRequest} {s : ManagedPortfolioState}
    (h : r.portfolio = s.toRiskState r.portfolio.killSwitchActive) :
    (∃ c, assessCircuitBreakers r s = .ok c) ↔
      fractionDigits s.sessionStartEquityQuote ≤ 38 ∧ fractionDigits s.peakEquityQuote ≤ 38 := by
  obtain ⟨v, hv, h1, h2, h3, h4⟩ := values_of_bound h
  have hlimit : decimalPattern (_canonical (sessionLimit s r.policy)) = true ↔
      fractionDigits s.sessionStartEquityQuote ≤ 38 := by
    rw [r.policy.eq_frozen]
    exact decimalPattern_fraction s.facts.sessionStart.1 (c := 2) (by decide)
  have hdrawdown : decimalPattern (_canonical (drawdownLimit s r.policy)) = true ↔
      fractionDigits s.peakEquityQuote ≤ 38 := by
    rw [r.policy.eq_frozen]
    exact decimalPattern_fraction s.facts.peak.1 (c := 10) (by decide)
  have hall := postInit_ofValues hv
  rw [h1, h2, h3, h4] at hall
  simp only [List.mem_cons, List.not_mem_nil, or_false, forall_eq_or_imp, forall_eq, hlimit,
    hdrawdown, decimalPattern_sessionLoss, decimalPattern_drawdown, true_and] at hall
  rw [← hall]
  constructor
  · rintro ⟨c, hc⟩
    obtain ⟨v', hv', hf⟩ := assess_eq_ok.mp hc
    rw [hv, Except.ok.injEq] at hv'
    subst hv'
    rw [← hf]
    exact c.valid
  · intro hok
    exact ⟨⟨_, hok⟩, assess_eq_ok.mpr ⟨v, hv, rfl⟩⟩

end Circuit

/-- Assessing and authorizing both return, and approve the whole open quantity. -/
def ExitApproved (r : RiskRequest) (s : ManagedPortfolioState) (k : KillSwitchState) : Prop :=
  ∃ c a, assessCircuitBreakers r s = .ok c ∧ authorizePaperRequest r s k c none = .ok a ∧
    a.decision.disposition = .approvePaper ∧
    a.decision.approvedQuantity = some s.positionQuantity

/-- Given the evidence, an exit is approved whatever the breakers and the switch say. -/
theorem decision_of_exit {r : RiskRequest} {s : ManagedPortfolioState} {k : KillSwitchState}
    {c : CircuitAssessment} (hexit : r.strategyDecision.action = .exitLong)
    (hbound : r.portfolio = s.toRiskState r.portfolio.killSwitchActive)
    (hkill : r.portfolio.killSwitchActive = k.active) (hc : assessCircuitBreakers r s = .ok c) :
    ∃ d, RiskAdapter._decisionFor r s k c none = .ok d ∧ d.disposition = .approvePaper ∧
      d.approvedQuantity = some s.positionQuantity := by
  have hq : r.portfolio.positionQuantity = s.positionQuantity := by
    rw [hbound]
    rfl
  have hopen : s.openPositions ≠ 0 := by
    have h := r.openPositions_ne_zero hexit
    rw [hbound] at h
    exact h
  have hpos : 0 < ofText s.positionQuantity := by
    have h0 := (decimalPattern_bounds s.facts.quantity).2.2.1
    have hne := mt s.facts.flat.mp hopen
    rw [Decimal.equiv_def, Decimal.toRat_zero] at hne
    rw [Decimal.lt_def, Decimal.toRat_zero]
    exact lt_of_le_of_ne h0 (Ne.symm hne)
  have hpost := RiskDecision.postInit_exit hexit (by rw [hq]; exact s.facts.quantity)
    (by rw [hq]; exact hpos)
  obtain ⟨v, hv, hf⟩ := Circuit.assess_eq_ok.mp hc
  have hrequest : c.request = r := by rw [hf]; rfl
  have hstate : c.managedState = s := by rw [hf]; rfl
  refine ⟨⟨_, hpost⟩, ?_, rfl, congrArg some hq⟩
  unfold RiskAdapter._decisionFor RiskAdapter._decide RiskDecision.build
  rw [raiseIf_neg (by simp [hrequest, hstate]), ok_bind, raiseIf_neg (by simp [hkill]), ok_bind,
    raiseIf_neg (by simp), ok_bind, hexit]
  simp only
  rw [raiseIf_neg (by simp), ok_bind, construct_of_ok hpost]
  rfl

/-- A long position of one unit whose session started from the given equity. -/
def longFields (sessionStartEquityQuote : String) : ManagedPortfolioState.Fields where
  symbol := .btcusdt
  sequence := 1
  decisionTimeMs := 14400000
  sessionStartTimeMs := 10800000
  sessionStartEquityQuote := sessionStartEquityQuote
  equityQuote := "100"
  cashQuote := "0"
  positionQuantity := "1"
  markPrice := "100"
  peakEquityQuote := "100"
  sessionRealizedPnlQuote := "0"
  consecutiveLosses := 0
  openPositions := 1
  grossExposureQuote := "100"
  previousStateSha256 := some (String.ofList (List.replicate 64 '0'))
  observationSha256 := String.ofList (List.replicate 64 '0')

def ordinaryLong : ManagedPortfolioState := ⟨longFields "100", by decide +kernel⟩

/-- A session started from an equity with thirty-nine digits after the point. -/
def finelyStartedLong : ManagedPortfolioState :=
  ⟨longFields "100.000000000000000000000000000000000000001", by decide +kernel⟩

def earliestExit : StrategyDecision where
  context := .of trendPullbackIdentity .earliest
  action := .exitLong
  reason := .strategyExit
  valid := by decide

def startupSwitch : KillSwitchState where
  mode := .triggered
  reason := .failClosedStartup
  sequence := 0
  eventTimeMs := 0
  triggeredBreakers := []
  lastCircuitTimeMs := none
  lastCircuitSha256 := none
  previousStateSha256 := none
  eventSha256 := String.ofList (List.replicate 64 '0')
  valid := by decide +kernel

def exitRequest (s : ManagedPortfolioState)
    (h : s.symbol = .btcusdt ∧ s.decisionTimeMs = 14400000 ∧ s.openPositions = 1) : RiskRequest where
  strategyDecision := earliestExit
  evidenceLabel := .qualifiedForP4Research
  portfolio := s.toRiskState true
  valid := by
    unfold RiskRequest.Fields.postInit
    have h1 : (s.toRiskState true).symbol = .btcusdt := h.1
    have h2 : (s.toRiskState true).decisionTimeMs = 14400000 := h.2.1
    have h3 : (s.toRiskState true).openPositions = 1 := h.2.2
    simp only [h1, h2, h3]
    decide

/-- An exit bound to the managed state and to the kill switch is approved in full exactly when
the two texts leave room for the fraction digits of their limits. -/
theorem exit_approved_iff {r : RiskRequest} {s : ManagedPortfolioState} {k : KillSwitchState}
    (hexit : r.strategyDecision.action = .exitLong)
    (hbound : r.portfolio = s.toRiskState r.portfolio.killSwitchActive) :
    ExitApproved r s k ↔ r.portfolio.killSwitchActive = k.active ∧
      fractionDigits s.sessionStartEquityQuote ≤ 38 ∧ fractionDigits s.peakEquityQuote ≤ 38 := by
  rw [← Circuit.assess_ok_iff hbound]
  constructor
  · rintro ⟨c, a, hc, ha, -, -⟩
    have hd := RiskAdapter.authorize_eq_ok ha
    unfold RiskAdapter._decisionFor at hd
    simp only [raiseIf_bind_eq_ok, not_not] at hd
    exact ⟨hd.2.1, c, hc⟩
  · rintro ⟨hkill, c, hc⟩
    obtain ⟨d, hd, hdisp, hqty⟩ := decision_of_exit hexit hbound hkill hc
    obtain ⟨a, ha, had⟩ := RiskAdapter.authorize_of_decision hd
    exact ⟨c, a, hc, ha, by rw [had]; exact hdisp, by rw [had]; exact hqty⟩

/-- With the switch triggered since the startup, an ordinary position can still be left. -/
theorem exit_approved_iff_ordinary :
    ExitApproved (exitRequest ordinaryLong (by decide)) ordinaryLong startupSwitch :=
  (exit_approved_iff rfl rfl).mpr ⟨rfl, by decide, by decide⟩

/-- An accepted state with an open position whose exit is stopped by an error. -/
theorem not_exit_always_approved :
    ¬ ∀ (r : RiskRequest) (s : ManagedPortfolioState) (k : KillSwitchState),
      r.strategyDecision.action = .exitLong → r.portfolio = s.toRiskState k.active →
        ExitApproved r s k := by
  intro law
  obtain ⟨c, -, hc, -⟩ := law (exitRequest finelyStartedLong (by decide)) finelyStartedLong
    startupSwitch rfl rfl
  have hfew := (Circuit.assess_ok_iff rfl).mp ⟨c, hc⟩
  exact absurd hfew.1 (by decide)

end TradingLab
