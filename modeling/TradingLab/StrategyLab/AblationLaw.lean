import TradingLab.StrategyLab.Ablation

/-!
# The ablations and the frozen evaluators

Both evaluators of a candidate end at the same setup, and an ablation gets there
whenever the frozen evaluator does. What they make of it differs in the text of
the stop: with more than forty digits after its point the setup of an ablation
refuses it, where the frozen evaluator has rounded it before.
-/

namespace TradingLab

open Decimal Evaluation Features Breakout

namespace Ablation

def close (context : StrategyContext) : Decimal := ofText context.snapshot.latestPrimary.close

/-- An evaluation with at most one removed filter gets to a setup below a low. -/
inductive Reaches (context : StrategyContext) (removed : Option EntryChange) :
    StrategyId → Decimal → Decimal → Prop
  | trend {regime : RegimeResult} {average volatility recentLow : FeatureResult}
      (classified : classifyRegime context = .ok regime)
      (averaged : Features.sma context.snapshot.primary Trend.primarySmaPeriod
        context.decisionTimeMs = .ok average)
      (ready : regime.reason ≠ .insufficientHistory) (seen : average.available)
      (gate : removed = some .removeRegime ∨ regime.regime = .trendUp)
      (dip : ¬ (average.number seen < ofText context.snapshot.latestPrimary.low ∨
        close context ≤ average.number seen))
      (confirmation : removed = some .removeConfirmation ∨ _confirmed context.snapshot.context)
      (moved : Features.atr context.snapshot.primary atrPeriod context.decisionTimeMs =
        .ok volatility)
      (dipped : Features.rollingLow context.snapshot.primary Trend.pullbackLookback
        context.decisionTimeMs = .ok recentLow)
      (known : volatility.available) (found : recentLow.available) :
      Reaches context removed .trendPullback (recentLow.number found) (volatility.number known)
  | breakout {regime : RegimeResult} {boundary volatility : FeatureResult}
      (classified : classifyRegime context = .ok regime)
      (bounded : Features.rollingHigh context.snapshot.primary.dropLast Breakout.breakoutLookback
        context.decisionTimeMs = .ok boundary)
      (moved : Features.atr context.snapshot.primary.dropLast atrPeriod context.decisionTimeMs =
        .ok volatility)
      (ready : regime.reason ≠ .insufficientHistory) (seen : boundary.available)
      (known : volatility.available)
      (gate : removed = some .removeRegime ∨ regime.regime = .trendUp)
      (above : ¬ close context ≤ boundary.number seen)
      (location : ¬ Breakout._closeLocation (ofText context.snapshot.latestPrimary.high)
        (ofText context.snapshot.latestPrimary.low) (close context) < Breakout.minimumCloseLocation)
      (extension : removed = some .removeVolatilityExtension ∨
        extensionOk (close context) (boundary.number seen) (volatility.number known) = true)
      (confirmation : removed = some .removeConfirmation ∨ _confirmed context.snapshot.context) :
      Reaches context removed .rangeBreakout (ofText context.snapshot.latestPrimary.low)
        (volatility.number known)

/-- The reason of an entry. -/
def StrategyId.entryReason : StrategyId → DecisionReason
  | trendPullback => .trendPullbackEntry
  | rangeBreakout => .breakoutEntry

section Ends
variable {context : StrategyContext} {s : StrategyId} {change : EntryChange}
  {removed : Option EntryChange} {low low' volatility volatility' : Decimal}

theorem Reaches.mono (h : Reaches context none s low volatility) :
    Reaches context removed s low volatility := by
  cases h with
  | trend classified averaged ready seen gate dip confirmation moved dipped known found =>
    exact .trend classified averaged ready seen (.inr (by simpa using gate)) dip
      (.inr (by simpa using confirmation)) moved dipped known found
  | breakout classified bounded moved ready seen known gate above location extension confirmation =>
    exact .breakout classified bounded moved ready seen known (.inr (by simpa using gate)) above
      location (.inr (by simpa using extension)) (.inr (by simpa using confirmation))

theorem Reaches.unique (h : Reaches context removed s low volatility)
    (h' : Reaches context change s low' volatility') : low = low' ∧ volatility = volatility' := by
  cases h with
  | trend _ _ _ _ _ _ _ moved dipped known found =>
    cases h' with
    | trend _ _ _ _ _ _ _ moved' dipped' known' found' =>
      rw [moved] at moved'
      rw [dipped] at dipped'
      cases moved'
      cases dipped'
      exact ⟨rfl, rfl⟩
  | breakout _ _ moved _ _ known =>
    cases h' with
    | breakout _ _ moved' _ _ known' =>
      rw [moved] at moved'
      cases moved'
      exact ⟨rfl, rfl⟩

variable {regime : RegimeResult} {reason : DecisionReason} {candles : List Candle}
  {target : Target} {price : Decimal}

theorem Reaches.regime_up (h : Reaches context none s low volatility)
    (classified : classifyRegime context = .ok regime) : regime.regime = .trendUp := by
  cases h with
  | trend classified' _ _ _ gate =>
    rw [classified] at classified'
    cases classified'
    simpa using gate
  | breakout classified' _ _ _ _ _ gate =>
    rw [classified] at classified'
    cases classified'
    simpa using gate

theorem Reaches.confirmed (h : Reaches context none s low volatility) :
    _confirmed context.snapshot.context := by
  cases h with
  | trend _ _ _ _ _ _ confirmation => simpa using confirmation
  | breakout _ _ _ _ _ _ _ _ _ _ confirmation => simpa using confirmation

theorem Reaches.extended (h : Reaches context none .rangeBreakout low volatility)
    {boundary range : FeatureResult}
    (bounded : Features.rollingHigh context.snapshot.primary.dropLast Breakout.breakoutLookback
      context.decisionTimeMs = .ok boundary)
    (moved : Features.atr context.snapshot.primary.dropLast atrPeriod context.decisionTimeMs =
      .ok range) (seen : boundary.available) (known : range.available) :
    extensionOk (close context) (boundary.number seen) (range.number known) = true := by
  cases h with
  | breakout _ bounded' moved' _ _ _ _ _ _ extension =>
    rw [bounded] at bounded'
    rw [moved] at moved'
    cases bounded'
    cases moved'
    simpa using extension

def Declined (frozen : Except EvaluatorError StrategyDecision) : Prop :=
  ∀ d, frozen = .ok d → d.action = .noTrade

variable {label message name : String} {r : FeatureResult} {next : Target → Outcome}
  {period required : ℕ} {measure : List Candle → Decimal} {t : ℤ}

theorem validated_flat {identity : StrategyIdentity}
    (h : context.identity = identity) : _validated identity label context false none = .ok none := by
  unfold _validated
  rw [raiseIf_neg (by simp [h]), raiseIf_neg (by simp [context.reconstructs])]
  rfl

theorem noTrade_eq (context : StrategyContext) (h : reason ∈ noTradeReasons) :
    ∃ d, StrategyDecision.build { context, action := .noTrade, reason } = .ok d ∧
      d.action = .noTrade := by
  have hvalid : (⟨context, .noTrade, reason, none⟩ : StrategyDecision.Fields).postInit = .ok () := by
    simp [StrategyDecision.Fields.postInit, StrategyDecision.Fields.consistent, h]
  exact ⟨⟨_, hvalid⟩, construct_eq_ok.mpr ⟨hvalid, rfl⟩, rfl⟩

theorem declined_noTrade (context : StrategyContext) :
    Declined (Evaluation._noTrade context reason) :=
  fun _ h => (noTrade_eq_ok h).2.1

theorem length_of_confirmed (h : _confirmed candles) :
    2 ≤ candles.length := by
  unfold _confirmed at h
  split at h
  · rename_i latest previous rest hcandles
    rw [← List.length_reverse, hcandles]
    simp
  · exact h.elim

theorem regime_of
    (h : classifyRegime context = .ok regime) : Evaluation._regime label context = .ok regime := by
  rw [Evaluation._regime, h]
  rfl

theorem featureOf_of {x : Except FeatureError FeatureResult}
    (h : x = .ok r) : _featureOf message x = .ok r ∧ _feature message x = .ok r := by
  subst h
  exact ⟨rfl, rfl⟩

theorem frozen_of_reaches (h : Reaches context none s low volatility)
    (hidentity : context.identity = s.identity) :
    s.evaluate context false none =
      Evaluation._enter context s.entryReason (close context) low volatility := by
  cases h with
  | @trend regime average volatility recentLow classified averaged ready seen gate dip confirmation
      moved dipped known found =>
    have hup : regime.regime = .trendUp := by simpa using gate
    have hconfirmed : _confirmed context.snapshot.context := by simpa using confirmation
    have hready : average.available ∧ regime.reason ≠ .insufficientHistory ∧
        2 ≤ context.snapshot.context.length := ⟨seen, ready, length_of_confirmed hconfirmed⟩
    have hvalidated : _validated trendPullbackIdentity Trend.label context false none = .ok none :=
      validated_flat hidentity
    change evaluateTrendPullback context false none = _
    unfold evaluateTrendPullback
    rw [close] at dip
    rw [hvalidated, ok_bind, regime_of classified, ok_bind, (featureOf_of averaged).1, ok_bind,
      dif_pos hready]
    unfold Trend._search Trend._levels
    dsimp only
    rw [hup, if_neg (by decide), if_neg (by simp), if_neg dip, if_neg (not_not.mpr hconfirmed),
      (featureOf_of moved).1, ok_bind, (featureOf_of dipped).1, ok_bind, dif_pos ⟨known, found⟩]
    rfl
  | @breakout regime boundary volatility classified bounded moved ready seen known gate above
      location extension confirmation =>
    have hup : regime.regime = .trendUp := by simpa using gate
    have hconfirmed : _confirmed context.snapshot.context := by simpa using confirmation
    have hready : (boundary.available ∧ volatility.available) ∧
        regime.reason ≠ .insufficientHistory ∧ 2 ≤ context.snapshot.context.length :=
      ⟨⟨seen, known⟩, ready, length_of_confirmed hconfirmed⟩
    have hvalidated : _validated breakoutIdentity Breakout.label context false none = .ok none :=
      validated_flat hidentity
    have hnear : ¬ (_closeLocation (ofText context.snapshot.latestPrimary.high)
          (ofText context.snapshot.latestPrimary.low) (close context) <
            minimumCloseLocation ∨
        (_extensionAtr (close context) (boundary.number seen)
          (volatility.number known)).all (maximumExtensionAtr < ·) = true) := by
      rw [not_or]
      exact ⟨location, by simpa [extensionOk] using extension⟩
    change evaluateBreakout context false none = _
    unfold evaluateBreakout
    rw [hvalidated, ok_bind, regime_of classified, ok_bind, (featureOf_of bounded).1, ok_bind,
      (featureOf_of moved).1, ok_bind, dif_pos hready]
    unfold _search
    dsimp only
    rw [close] at above hnear
    rw [hup, if_neg (by decide), if_neg (by simp), if_neg above, if_neg hnear,
      if_neg (not_not.mpr hconfirmed)]
    rfl

/-- Short of a setup the frozen evaluator enters nothing. -/
theorem frozen_of_not_reaches (h : ∀ low volatility, ¬ Reaches context none s low volatility)
    (hidentity : context.identity = s.identity) : Declined (s.evaluate context false none) := by
  intro d hd
  cases s with
  | trendPullback =>
    have hvalidated : _validated trendPullbackIdentity Trend.label context false none = .ok none :=
      validated_flat hidentity
    change evaluateTrendPullback context false none = _ at hd
    unfold evaluateTrendPullback at hd
    rw [hvalidated, ok_bind] at hd
    obtain ⟨regime, hregime, hd⟩ := bind_eq_ok.mp hd
    obtain ⟨average, haverage, hd⟩ := bind_eq_ok.mp hd
    split at hd
    · rename_i hready
      unfold Trend._search at hd
      dsimp only at hd
      split at hd
      · exact declined_noTrade context d hd
      split at hd
      · exact declined_noTrade context d hd
      split at hd
      · exact declined_noTrade context d hd
      split at hd
      · exact declined_noTrade context d hd
      rename_i _ hup hdip hconfirmed
      unfold Trend._levels at hd
      obtain ⟨volatility, hvolatility, hd⟩ := bind_eq_ok.mp hd
      obtain ⟨recentLow, hlow, hd⟩ := bind_eq_ok.mp hd
      split at hd
      · rename_i hknown
        exact absurd (.trend (mapError_eq_ok.mp hregime) (mapError_eq_ok.mp haverage) hready.2.1
          hready.1 (.inr (not_not.mp hup)) hdip (.inr (not_not.mp hconfirmed))
          (mapError_eq_ok.mp hvolatility) (mapError_eq_ok.mp hlow) hknown.1 hknown.2) (h _ _)
      · exact declined_noTrade context d hd
    · exact declined_noTrade context d hd
  | rangeBreakout =>
    have hvalidated : _validated breakoutIdentity Breakout.label context false none = .ok none :=
      validated_flat hidentity
    change evaluateBreakout context false none = _ at hd
    unfold evaluateBreakout at hd
    rw [hvalidated, ok_bind] at hd
    obtain ⟨regime, hregime, hd⟩ := bind_eq_ok.mp hd
    obtain ⟨boundary, hboundary, hd⟩ := bind_eq_ok.mp hd
    obtain ⟨volatility, hvolatility, hd⟩ := bind_eq_ok.mp hd
    split at hd
    · rename_i hready
      unfold _search at hd
      dsimp only at hd
      split at hd
      · exact declined_noTrade context d hd
      split at hd
      · exact declined_noTrade context d hd
      split at hd
      · exact declined_noTrade context d hd
      split at hd
      · exact declined_noTrade context d hd
      split at hd
      · exact declined_noTrade context d hd
      rename_i _ hup habove hnear hconfirmed
      rw [not_or] at hnear
      exact absurd (.breakout (mapError_eq_ok.mp hregime) (mapError_eq_ok.mp hboundary)
        (mapError_eq_ok.mp hvolatility) hready.2.1 hready.1.1 hready.1.2 (.inr (not_not.mp hup))
        habove hnear.1 (.inr (by simpa [extensionOk, close] using hnear.2))
        (.inr (not_not.mp hconfirmed))) (h _ _)
    · exact declined_noTrade context d hd

theorem regime_ok
    (h : classifyRegime context = .ok regime) : _regime message context = .ok regime := by
  rw [_regime, h]
  rfl

theorem gateRegime_removed {regime : MarketRegime}
    (h : target.change = .removeRegime) : _gateRegime context regime target next =
      next (target.asked (regime = .trendUp)) := if_pos h

theorem gateRegime_up
    (h : target.change ≠ .removeRegime) : _gateRegime context .trendUp target next = next target := by
  unfold _gateRegime
  rw [if_neg h, if_neg (by decide), if_neg (by simp)]

/-- What passes every filter but one passes all of them when it passes that one. -/
inductive Asked (context : StrategyContext) (s : StrategyId) (change : EntryChange)
    (low volatility : Decimal) : Target → Prop
  | asked (passed : Bool) (iff : passed = true ↔ Reaches context none s low volatility) :
      Asked context s change low volatility ⟨change, passed, !passed⟩

theorem ablated_of_reaches (h : Reaches context change s low volatility)
    (hregistered : change ∈ s.registered) :
    ∃ target, Asked context s change low volatility target ∧
      _evaluateExperiment ⟨s, [change]⟩ context false none =
        _enter context s.entryReason target (close context) low volatility := by
  cases h with
  | @trend regime average volatility recentLow classified averaged ready seen gate dip confirmation
      moved dipped known found =>
    have hlevels : ∀ target, _trendLevels context (close context) target =
        _enter context .trendPullbackEntry target (close context) (recentLow.number found)
          (volatility.number known) := by
      intro target
      unfold _trendLevels
      dsimp only
      rw [(featureOf_of moved).2, ok_bind, (featureOf_of dipped).2, ok_bind, dif_pos ⟨known, found⟩]
    have hsearch : _evaluateExperiment ⟨.trendPullback, [change]⟩ context false none =
        _trendSearch context regime.regime (average.number seen) ⟨change, false, false⟩ := by
      change _evaluateTrend context false none (some change) = _
      unfold _evaluateTrend
      dsimp only
      rw [regime_ok classified, ok_bind, (featureOf_of averaged).2, ok_bind, dif_pos ⟨ready, seen⟩]
    have hall : regime.regime = .trendUp → _confirmed context.snapshot.context →
        Reaches context none .trendPullback (recentLow.number found) (volatility.number known) :=
      fun hup hconfirm => .trend classified averaged ready seen (.inr hup) dip (.inr hconfirm) moved
        dipped known found
    rw [hsearch]
    unfold _trendSearch
    have hdip := dip
    rw [close] at hdip
    cases change with
    | removeConfirmation =>
      have hup : regime.regime = .trendUp := by simpa using gate
      refine ⟨_, .asked (_confirmed context.snapshot.context) ?_, ?_⟩
      · rw [decide_eq_true_eq]
        exact ⟨hall hup, Reaches.confirmed⟩
      · rw [hup, gateRegime_up (by simp)]
        dsimp only
        rw [if_neg hdip, _trendConfirmation, if_pos rfl]
        exact hlevels _
    | removeRegime =>
      have hconfirm : _confirmed context.snapshot.context := by simpa using confirmation
      refine ⟨_, .asked (regime.regime = .trendUp) ?_, ?_⟩
      · rw [decide_eq_true_eq]
        exact ⟨fun hup => hall hup hconfirm, fun h => h.regime_up classified⟩
      · rw [gateRegime_removed rfl]
        dsimp only
        rw [if_neg hdip, _trendConfirmation, if_neg (by simp [Target.asked]),
          if_neg (not_not.mpr hconfirm)]
        exact hlevels _
    | removeVolatilityExtension => simp [StrategyId.registered] at hregistered
  | @breakout regime boundary volatility classified bounded moved ready seen known gate above
      location extension confirmation =>
    have hsearch : _evaluateExperiment ⟨.rangeBreakout, [change]⟩ context false none =
        _breakoutSearch context regime.regime (boundary.number seen) (volatility.number known)
          ⟨change, false, false⟩ := by
      change _evaluateBreakout context false none (some change) = _
      unfold _evaluateBreakout
      dsimp only
      rw [regime_ok classified, ok_bind, (featureOf_of bounded).2, ok_bind, (featureOf_of moved).2,
        ok_bind, dif_pos ⟨ready, seen, known⟩]
    have hall : regime.regime = .trendUp →
        extensionOk (close context) (boundary.number seen) (volatility.number known) = true →
        _confirmed context.snapshot.context → Reaches context none .rangeBreakout
          (ofText context.snapshot.latestPrimary.low) (volatility.number known) :=
      fun hup hnear hconfirm => .breakout classified bounded moved ready seen known (.inr hup) above
        location (.inr hnear) (.inr hconfirm)
    rw [hsearch]
    unfold _breakoutSearch
    have habove := above
    have hlocation := location
    rw [close] at habove hlocation
    cases change with
    | removeConfirmation =>
      have hup : regime.regime = .trendUp := by simpa using gate
      have hnear : extensionOk (close context) (boundary.number seen) (volatility.number known) =
          true := by simpa using extension
      refine ⟨_, .asked (_confirmed context.snapshot.context) ?_, ?_⟩
      · rw [decide_eq_true_eq]
        exact ⟨hall hup hnear, Reaches.confirmed⟩
      · rw [close] at hnear
        rw [hup, gateRegime_up (by simp)]
        dsimp only
        rw [if_neg habove, if_neg hlocation, _breakoutExtension, if_neg (by simp),
          if_neg (not_not.mpr hnear), _breakoutConfirmation, if_pos rfl]
        rfl
    | removeRegime =>
      have hnear : extensionOk (close context) (boundary.number seen) (volatility.number known) =
          true := by simpa using extension
      have hconfirm : _confirmed context.snapshot.context := by simpa using confirmation
      refine ⟨_, .asked (regime.regime = .trendUp) ?_, ?_⟩
      · rw [decide_eq_true_eq]
        exact ⟨fun hup => hall hup hnear hconfirm, fun h => h.regime_up classified⟩
      · rw [close] at hnear
        rw [gateRegime_removed rfl]
        dsimp only
        rw [if_neg habove, if_neg hlocation, _breakoutExtension, if_neg (by simp [Target.asked]),
          if_neg (not_not.mpr hnear), _breakoutConfirmation, if_neg (by simp [Target.asked]),
          if_neg (not_not.mpr hconfirm)]
        rfl
    | removeVolatilityExtension =>
      have hup : regime.regime = .trendUp := by simpa using gate
      have hconfirm : _confirmed context.snapshot.context := by simpa using confirmation
      refine ⟨_, .asked (extensionOk (close context) (boundary.number seen)
        (volatility.number known)) ?_, ?_⟩
      · exact ⟨fun hnear => hall hup hnear hconfirm, fun h => h.extended bounded moved seen known⟩
      · rw [hup, gateRegime_up (by simp)]
        dsimp only
        rw [if_neg habove, if_neg hlocation, _breakoutExtension, if_pos rfl, _breakoutConfirmation,
          if_neg (by simp [Target.asked]), if_neg (not_not.mpr hconfirm)]
        rfl

def Ends (o : Outcome) : Prop := ∃ d r, o = .ok (d, r) ∧ d.action = .noTrade

/-- The removed filter never both passes and blocks. -/
def Target.Consistent (t : Target) : Prop := ¬ (t.passed = true ∧ t.blocked = true)

theorem consistent_asked (t : Target) (passed : Bool) : (t.asked passed).Consistent := by
  cases passed <;> simp [Target.Consistent, Target.asked]

theorem Target.Consistent.record {t : Target} (h : t.Consistent) :
    t.record = .ok ⟨t.change, t.passed, t.blocked⟩ := by
  unfold Target.record _targetRecord
  rw [raiseIf_neg h]
  rfl

theorem ends_noTrade (h : reason ∈ noTradeReasons)
    (htarget : target.Consistent) : Ends (_noTrade context reason target) := by
  obtain ⟨d, hd, haction⟩ := noTrade_eq context h
  unfold _noTrade _decide
  rw [hd, htarget.record]
  exact ⟨d, _, rfl, haction⟩

theorem exists_feature
    {visible : List Candle} (hvisible : Features._visible candles t = .ok visible)
    (hname : name ≠ "") (hperiod : 1 ≤ period ∧ period ≤ maxFeaturePeriod) (hrequired : 0 < required) :
    ∃ r, Features._feature name period required measure candles t = .ok r := by
  have htime : 0 < t := by
    unfold _visible at hvisible
    rw [raiseIf_bind_eq_ok] at hvisible
    omega
  unfold Features._feature _period
  rw [raiseIf_neg (not_not.mpr hperiod), ok_bind, hvisible]
  change ∃ r, _result name period t visible required measure = .ok r
  unfold _result
  split
  · rename_i hshort
    refine ⟨⟨_, ?_⟩, construct_eq_ok.mpr ⟨?_, rfl⟩⟩ <;>
      simp [FeatureResult.Fields.postInit, hname, htime, hrequired.ne', hshort] <;> omega
  · rename_i hlong
    refine ⟨⟨_, ?_⟩, construct_eq_ok.mpr ⟨?_, rfl⟩⟩ <;>
      simp [FeatureResult.Fields.postInit, hname, htime, hrequired.ne', hlong] <;> omega

theorem visible_of_feature (h : Features._feature name period required measure candles t = .ok r) :
    ∃ visible, Features._visible candles t = .ok visible := by
  unfold Features._feature at h
  obtain ⟨p, -, h⟩ := bind_eq_ok.mp h
  obtain ⟨visible, hvisible, -⟩ := bind_eq_ok.mp h
  exact ⟨visible, hvisible⟩

theorem exists_levels {average : FeatureResult}
    (h : Features.sma context.snapshot.primary Trend.primarySmaPeriod context.decisionTimeMs =
      .ok average) :
    (∃ r, Features.atr context.snapshot.primary atrPeriod context.decisionTimeMs = .ok r) ∧
      ∃ r, Features.rollingLow context.snapshot.primary Trend.pullbackLookback
        context.decisionTimeMs = .ok r := by
  obtain ⟨visible, hvisible⟩ := visible_of_feature h
  exact ⟨exists_feature hvisible (by decide) (by decide) (by decide),
    exists_feature hvisible (by decide) (by decide) (by decide)⟩

theorem gateRegime_cases {regime : MarketRegime} (htarget : target.Consistent)
    (next : Target → Outcome) : Ends (_gateRegime context regime target next) ∨
      ∃ target' : Target, target'.Consistent ∧ target'.change = target.change ∧
        (target.change = .removeRegime ∨ regime = .trendUp) ∧
        _gateRegime context regime target next = next target' := by
  have hbare : target.bare.Consistent := by simp [Target.Consistent, Target.bare]
  unfold _gateRegime
  split
  · rename_i hremoved
    exact .inr ⟨_, consistent_asked target _, rfl, .inl hremoved, rfl⟩
  split
  · exact .inl (ends_noTrade (by decide) hbare)
  split
  · exact .inl (ends_noTrade (by decide) hbare)
  · rename_i hup
    exact .inr ⟨target, htarget, rfl, .inr (not_not.mp hup), rfl⟩

theorem trendConfirmation_cases (htarget : target.Consistent) :
    Ends (_trendConfirmation context price target) ∨
      ∃ target' : Target, target'.Consistent ∧
        (target.change = .removeConfirmation ∨ _confirmed context.snapshot.context) ∧
        _trendConfirmation context price target = _trendLevels context price target' := by
  have hbare : target.bare.Consistent := by simp [Target.Consistent, Target.bare]
  unfold _trendConfirmation
  split
  · rename_i hremoved
    exact .inr ⟨_, consistent_asked target _, .inl hremoved, rfl⟩
  split
  · exact .inl (ends_noTrade (by decide) hbare)
  · rename_i hconfirmed
    exact .inr ⟨target, htarget, .inr (not_not.mp hconfirmed), rfl⟩

theorem breakoutExtension_cases {boundary volatility low : Decimal} (htarget : target.Consistent) :
    Ends (_breakoutExtension context boundary volatility price low target) ∨
      ∃ target' : Target, target'.Consistent ∧ target'.change = target.change ∧
        (target.change = .removeVolatilityExtension ∨
          extensionOk price boundary volatility = true) ∧
        _breakoutExtension context boundary volatility price low target =
          _breakoutConfirmation context price low volatility target' := by
  have hbare : target.bare.Consistent := by simp [Target.Consistent, Target.bare]
  unfold _breakoutExtension
  dsimp only
  split
  · rename_i hremoved
    exact .inr ⟨_, consistent_asked target _, rfl, .inl hremoved, rfl⟩
  split
  · exact .inl (ends_noTrade (by decide) hbare)
  · rename_i hnear
    exact .inr ⟨target, htarget, rfl, .inr (not_not.mp hnear), rfl⟩

theorem breakoutConfirmation_ends {volatility low : Decimal} (htarget : target.Consistent)
    (h : ¬ (target.change = .removeConfirmation ∨ _confirmed context.snapshot.context)) :
    Ends (_breakoutConfirmation context price low volatility target) := by
  rw [not_or] at h
  unfold _breakoutConfirmation
  rw [if_neg h.1, if_pos h.2]
  exact ends_noTrade (by decide) htarget

/-- Short of a setup an ablation returns without an entry, or fails where the frozen one fails. -/
theorem trend_of_not_reaches
    (h : ∀ low volatility, ¬ Reaches context change .trendPullback low volatility)
    (hidentity : context.identity = trendPullbackIdentity) :
    Ends (_evaluateTrend context false none (some change)) ∨
      (∃ e, _evaluateTrend context false none (some change) = .error e) ∧
        ∃ e, evaluateTrendPullback context false none = .error e := by
  have hfresh : (⟨change, false, false⟩ : Target).Consistent := by simp [Target.Consistent]
  have hvalidated : _validated trendPullbackIdentity Trend.label context false none = .ok none :=
    validated_flat hidentity
  unfold _evaluateTrend evaluateTrendPullback
  dsimp only
  rw [hvalidated, ok_bind]
  cases hregime : classifyRegime context with
  | error e =>
    rw [Evaluation._regime, _regime, hregime]
    exact .inr ⟨⟨_, rfl⟩, _, rfl⟩
  | ok regime =>
    rw [regime_of hregime, regime_ok hregime, ok_bind, ok_bind]
    cases haverage : sma context.snapshot.primary Trend.primarySmaPeriod
        context.decisionTimeMs with
    | error e => exact .inr ⟨⟨_, rfl⟩, _, rfl⟩
    | ok average =>
      left
      rw [(featureOf_of rfl).2, ok_bind]
      split
      · rename_i hready
        unfold _trendSearch
        rcases gateRegime_cases hfresh _ with hends | ⟨target, htarget, hchange, hgate, hnext⟩
        · exact hends
        rw [hnext]
        dsimp only
        split
        · exact ends_noTrade (by decide) htarget
        rename_i hdip
        rcases trendConfirmation_cases htarget with hends | ⟨target', htarget', hconfirmed, hlevels⟩
        · exact hends
        obtain ⟨⟨volatility, hvolatility⟩, recentLow, hlow⟩ := exists_levels haverage
        rw [hlevels]
        unfold _trendLevels
        dsimp only
        rw [(featureOf_of hvolatility).2, ok_bind, (featureOf_of hlow).2, ok_bind]
        split
        · rename_i hknown
          rw [hchange] at hconfirmed
          exact absurd (.trend hregime haverage hready.1 hready.2 (hgate.imp_left (congrArg some))
            hdip (hconfirmed.imp_left (congrArg some)) hvolatility hlow hknown.1 hknown.2) (h _ _)
        · exact ends_noTrade (by decide) htarget'
      · exact ends_noTrade (by decide) hfresh

theorem breakout_of_not_reaches
    (h : ∀ low volatility, ¬ Reaches context change .rangeBreakout low volatility)
    (hidentity : context.identity = breakoutIdentity) :
    Ends (_evaluateBreakout context false none (some change)) ∨
      (∃ e, _evaluateBreakout context false none (some change) = .error e) ∧
        ∃ e, evaluateBreakout context false none = .error e := by
  have hfresh : (⟨change, false, false⟩ : Target).Consistent := by simp [Target.Consistent]
  have hvalidated : _validated breakoutIdentity Breakout.label context false none = .ok none :=
    validated_flat hidentity
  unfold _evaluateBreakout evaluateBreakout
  dsimp only
  rw [hvalidated, ok_bind]
  cases hregime : classifyRegime context with
  | error e =>
    rw [Evaluation._regime, _regime, hregime]
    exact .inr ⟨⟨_, rfl⟩, _, rfl⟩
  | ok regime =>
    rw [regime_of hregime, regime_ok hregime, ok_bind, ok_bind]
    cases hboundary : rollingHigh context.snapshot.primary.dropLast
        breakoutLookback context.decisionTimeMs with
    | error e => exact .inr ⟨⟨_, rfl⟩, _, rfl⟩
    | ok boundary =>
      cases hvolatility : atr context.snapshot.primary.dropLast atrPeriod
          context.decisionTimeMs with
      | error e => exact .inr ⟨⟨_, rfl⟩, _, rfl⟩
      | ok volatility =>
        left
        rw [(featureOf_of rfl).2, ok_bind, (featureOf_of rfl).2, ok_bind]
        split
        · rename_i hready
          unfold _breakoutSearch
          rcases gateRegime_cases hfresh _ with hends | ⟨target, htarget, hchange, hgate, hnext⟩
          · exact hends
          rw [hnext]
          dsimp only
          split
          · exact ends_noTrade (by decide) htarget
          split
          · exact ends_noTrade (by decide) htarget
          rename_i habove hlocation
          rcases breakoutExtension_cases htarget with
            hends | ⟨target', htarget', hchange', hnear, hextension⟩
          · exact hends
          rw [hextension]
          apply breakoutConfirmation_ends htarget'
          intro hconfirmed
          rw [hchange', hchange] at hconfirmed
          rw [hchange] at hnear
          exact h _ _ (.breakout hregime hboundary hvolatility hready.1 hready.2.1 hready.2.2
            (hgate.imp_left (congrArg some)) habove hlocation (hnear.imp_left (congrArg some))
            (hconfirmed.imp_left (congrArg some)))
        · exact ends_noTrade (by decide) hfresh

theorem ablated_of_not_reaches (h : ∀ low volatility, ¬ Reaches context change s low volatility)
    (hidentity : context.identity = s.identity) :
    Ends (_evaluateExperiment ⟨s, [change]⟩ context false none) ∨
      (∃ e, _evaluateExperiment ⟨s, [change]⟩ context false none = .error e) ∧
        ∃ e, s.evaluate context false none = .error e := by
  cases s with
  | trendPullback => exact trend_of_not_reaches h hidentity
  | rangeBreakout => exact breakout_of_not_reaches h hidentity

end Ends

end Ablation

end TradingLab
