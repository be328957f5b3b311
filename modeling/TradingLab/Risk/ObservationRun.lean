import TradingLab.Decimal.Quotient
import TradingLab.Risk.Observation

/-!
# Runs of managed states

The managed state is updated observation by observation. After any run it is a
function of the accepted observations as a whole: the greatest equity, the losses
at the end of the closed trades, and the session since its last start.
-/

namespace TradingLab

open Decimal (ofText Holds onGrid_toRat)

theorem holds_signedDecimalPattern {s : String} (h : signedDecimalPattern s) :
    Holds 40 40 (ofText s) (ofText s).toRat := by
  obtain ⟨he, -, hlt⟩ := Decimal.signedText_bounds (by decide) h
  exact ⟨rfl, onGrid_toRat he, hlt⟩

theorem fixed_decimalPattern {s : String} (h : decimalPattern s) : (ofText s).fixed = s :=
  Decimal.fixed_ofText_unsigned (by decide) h

namespace RiskState

/-- The state is replaced when the transition accepts the observation. -/
def observe (observation : PortfolioObservation) :
    Method (Option ManagedPortfolioState) RiskStateError Unit :=
  .replaceBy fun previous => do
    let transition ← applyPortfolioObservation previous observation
    return some transition.current

variable {o : PortfolioObservation} {os : List PortfolioObservation} {s : ManagedPortfolioState}

theorem after_observe_of_returns {s : Option ManagedPortfolioState}
    (h : (observe o).Returns s) : ∃ m, _nextState s o = .ok m ∧ (observe o).after s = some m := by
  obtain ⟨t, ht, hs⟩ := bind_eq_ok.mp (Method.after_replaceBy_of_returns h)
  exact ⟨t.current, (applyPortfolioObservation_eq_ok.mp ht).1, (Except.ok.inj hs).symm⟩

def equityOf (o : PortfolioObservation) : ℚ := (ofText o.equityQuote).toRat

def deltaOf (o : PortfolioObservation) : ℚ := (ofText o.realizedPnlDeltaQuote).toRat

/-- The outcomes of the closed trades, in order. -/
def closedOutcomes (os : List PortfolioObservation) : List CloseOutcome :=
  (os.map fun o => o.closeOutcome).filter (· ≠ .noClose)

/-- The losing trades after the last closed trade that was not one. -/
def trailingLosses (os : List PortfolioObservation) : List CloseOutcome :=
  (closedOutcomes os).rtakeWhile (· = .loss)

theorem closedOutcomes_snoc_open
    (h : o.closeOutcome = .noClose) : closedOutcomes (os ++ [o]) = closedOutcomes os := by
  unfold closedOutcomes
  simp [h]

theorem closedOutcomes_snoc (h : o.closeOutcome ≠ .noClose) :
    closedOutcomes (os ++ [o]) = closedOutcomes os ++ [o.closeOutcome] := by
  unfold closedOutcomes
  simp [h]

/-- One more outcome counts as the source counts it. -/
theorem length_trailingLosses_snoc (os : List PortfolioObservation) (o : PortfolioObservation) :
    ((trailingLosses (os ++ [o])).length : ℤ) =
      _losses (trailingLosses os).length o.closeOutcome := by
  unfold trailingLosses
  cases h : o.closeOutcome with
  | noClose =>
    rw [closedOutcomes_snoc_open h]
    rfl
  | win =>
    rw [closedOutcomes_snoc (by rw [h]; decide), h, List.rtakeWhile_concat_neg _ _ _ (by decide)]
    rfl
  | loss =>
    rw [closedOutcomes_snoc (by rw [h]; decide), h, List.rtakeWhile_concat_pos _ _ _ (by decide),
      List.length_append]
    rfl
  | breakeven =>
    rw [closedOutcomes_snoc (by rw [h]; decide), h, List.rtakeWhile_concat_neg _ _ _ (by decide)]
    rfl

/-- The session the observations end in: where it started and what it realized. -/
structure SessionLaw (os : List PortfolioObservation) (s : ManagedPortfolioState)
    (start : PortfolioObservation) (since : List PortfolioObservation) : Prop where
  split : ∃ before, os = before ++ start :: since
  starts : start.startNewSession = true
  last : ∀ o ∈ since, o.startNewSession = false
  time : s.sessionStartTimeMs = start.decisionTimeMs
  equity : s.sessionStartEquityQuote = start.equityQuote
  pnl : (ofText s.sessionRealizedPnlQuote).toRat = (since.map deltaOf).sum

/-- The managed state as a function of all the accepted observations. -/
structure FoldLaw (os : List PortfolioObservation) (s : ManagedPortfolioState) : Prop where
  peak : IsGreatest {q | ∃ o ∈ os, equityOf o = q} (ofText s.peakEquityQuote).toRat
  losses : s.consecutiveLosses = (trailingLosses os).length
  session : ∃ start since, SessionLaw os s start since
  positions : ∃ o ∈ os.getLast?, s.openPositions = if ofText o.positionQuantity ≈ 0 then 0 else 1

theorem foldLaw_first (h : _nextState none o = .ok s) : FoldLaw [o] s := by
  obtain ⟨hsession, hclose, hs⟩ := _nextState_none h
  have hequity := o.facts.equity.1
  refine ⟨?_, ?_, ⟨o, [], ?_⟩, ⟨o, rfl, by rw [hs]; rfl⟩⟩
  · have hpeak : (ofText s.peakEquityQuote).toRat = equityOf o := by
      rw [hs]
      exact Decimal.toRat_ofText_fixed _
    rw [hpeak]
    refine ⟨⟨o, by simp, rfl⟩, ?_⟩
    rintro q ⟨o', ho', rfl⟩
    rw [List.mem_singleton.mp ho']
  · have h := length_trailingLosses_snoc [] o
    rw [hclose] at h
    rw [hs]
    exact h.symm
  · refine ⟨⟨[], rfl⟩, hsession, by simp, by rw [hs]; rfl, ?_, ?_⟩
    · rw [hs]
      exact fixed_decimalPattern hequity
    · rw [hs]
      exact (Decimal.toRat_ofText_fixed _).trans Decimal.toRat_zero

theorem toRat_larger (a b : Decimal) : (a.larger b).toRat = max a.toRat b.toRat := by
  unfold Decimal.larger
  split
  · rename_i h
    exact (max_eq_right (Decimal.lt_def.mp h).le).symm
  · rename_i h
    exact (max_eq_left (not_lt.mp (mt Decimal.lt_def.mpr h))).symm

theorem isGreatest_snoc {q : ℚ} (h : IsGreatest {q | ∃ o ∈ os, equityOf o = q} q) :
    IsGreatest {q | ∃ o' ∈ os ++ [o], equityOf o' = q} (max q (equityOf o)) := by
  obtain ⟨⟨m, hm, hmq⟩, hub⟩ := h
  constructor
  · rcases max_choice q (equityOf o) with hmax | hmax
    · exact ⟨m, List.mem_append_left _ hm, by rw [hmax, hmq]⟩
    · exact ⟨o, by simp, hmax.symm⟩
  · rintro x ⟨o', ho', rfl⟩
    rcases List.mem_append.mp ho' with ho' | ho'
    · exact (hub ⟨o', ho', rfl⟩).trans (le_max_left _ _)
    · rw [List.mem_singleton.mp ho']
      exact le_max_right _ _

/-- The session goes on, or a new one starts with the observation. -/
theorem SessionLaw.next {p : ManagedPortfolioState}
    {start : PortfolioObservation} {since : List PortfolioObservation}
    {time : ℤ} {equity pnl : Decimal} (hp : SessionLaw os p start since)
    (h : _session p o = .ok (time, equity, pnl)) (ht : s.sessionStartTimeMs = time)
    (he : s.sessionStartEquityQuote = _canonical equity)
    (hq : s.sessionRealizedPnlQuote = _canonical pnl) :
    ∃ start since, SessionLaw (os ++ [o]) s start since := by
  unfold _session at h
  split at h
  · rename_i hstart
    rw [raiseIf_bind_eq_ok, raiseIf_bind_eq_ok] at h
    obtain ⟨-, -, h⟩ := h
    cases h
    refine ⟨o, [], ⟨os, rfl⟩, hstart, by simp, ht, ?_, ?_⟩
    · rw [he]
      exact fixed_decimalPattern o.facts.equity.1
    · rw [hq]
      exact (Decimal.toRat_ofText_fixed _).trans Decimal.toRat_zero
  · rename_i hstart
    cases h
    obtain ⟨before, hos⟩ := hp.split
    refine ⟨start, since ++ [o], ⟨before, by simp [hos]⟩, hp.starts, ?_, ht.trans hp.time, ?_, ?_⟩
    · intro o' ho'
      rcases List.mem_append.mp ho' with ho' | ho'
      · exact hp.last o' ho'
      · rw [List.mem_singleton.mp ho']
        simpa using hstart
    · rw [he, ← hp.equity]
      exact fixed_decimalPattern p.facts.sessionStart.1
    · have hsum := (holds_signedDecimalPattern p.facts.pnl).add (by decide : 0 < precision)
        (holds_signedDecimalPattern o.facts.pnl) (by decide)
      rw [hq, List.map_append, List.sum_append, ← hp.pnl]
      calc (ofText (_canonical _)).toRat = _ := Decimal.toRat_ofText_fixed _
        _ = _ := hsum.value
        _ = _ := by simp [deltaOf]

theorem FoldLaw.next {p : ManagedPortfolioState} (hp : FoldLaw os p)
    (h : _nextState (some p) o = .ok s) :
    FoldLaw (os ++ [o]) s := by
  obtain ⟨time, equity, pnl, hsession, -, -, -, hs⟩ := _nextState_some h
  obtain ⟨start, since, hlaw⟩ := hp.session
  refine ⟨?_, ?_, ?_, ⟨o, by simp, by rw [hs]; rfl⟩⟩
  · have hpeak : (ofText s.peakEquityQuote).toRat =
        max (ofText p.peakEquityQuote).toRat (equityOf o) := by
      rw [hs]
      exact (Decimal.toRat_ofText_fixed _).trans (toRat_larger _ _)
    rw [hpeak]
    exact isGreatest_snoc hp.peak
  · rw [length_trailingLosses_snoc, ← hp.losses, hs]
    rfl
  · exact hlaw.next hsession (by rw [hs]; rfl) (by rw [hs]; rfl) (by rw [hs]; rfl)

/-- The law of whichever state the caller keeps. -/
def Lawful (os : List PortfolioObservation) : Option ManagedPortfolioState → Prop
  | none => os = []
  | some s => FoldLaw os s

/-- **Fold law of the managed state.** -/
theorem managed_state_fold (observations : List PortfolioObservation) :
    Lawful (Method.accepted observe observations none) (Method.run observe observations none) ∧
    ∀ o, ¬ (observe o).Returns (Method.run observe observations none) →
      (observe o).after (Method.run observe observations none) =
        Method.run observe observations none := by
  refine ⟨?_, fun o => Method.after_replaceBy_of_rejected⟩
  apply Method.run_accepted
  · rfl
  · intro os o s hs hr
    unfold observe at hr ⊢
    rwa [Method.after_replaceBy_of_rejected hr]
  · intro os o s hs hr
    obtain ⟨m, hm, ha⟩ := after_observe_of_returns hr
    rw [ha]
    cases s with
    | none =>
      have hnil : os = [] := hs
      subst hnil
      exact foldLaw_first hm
    | some p => exact FoldLaw.next hs hm

end RiskState

end TradingLab
