import TradingLab.StrategyLab.AblationSetup
import TradingLab.Validation.RiskTrackerRun

/-!
# What the ablations refine

Where the level of a stop has the digits of a plain text, an ablation enters with
the setup of the frozen evaluator whenever that one enters, and says whether its
filter would have let it. A longer level is refused with its setup, where the
frozen evaluator has rounded it.
-/

namespace TradingLab

open Decimal Evaluation

namespace Ablation

section Frozen
variable {context : StrategyContext} {reason : DecisionReason} {price low volatility : Decimal}

theorem frozen_noTrade (context : StrategyContext) {reason : DecisionReason}
    (h : reason ∈ noTradeReasons) :
    ∃ d, Evaluation._noTrade context reason = .ok d ∧ d.action = .noTrade := by
  obtain ⟨d, hd, haction⟩ := noTrade_eq context h
  refine ⟨d, ?_, haction⟩
  unfold Evaluation._noTrade _decision
  rw [hd]
  rfl

theorem toRat_rounded_nonpos (h : (level low volatility).toRat ≤ 0) :
    (rounded (level low volatility)).toRat ≤ 0 := by
  rw [toRat_rounded]
  exact toGrid_le (by exact_mod_cast onGrid_intCast 40 0) h

theorem Priced.le_rounded (hprice : Priced price) (h : price.toRat ≤ (level low volatility).toRat) :
    price.toRat ≤ (rounded (level low volatility)).toRat := by
  rw [toRat_rounded]
  exact le_toGrid hprice.fits.onGrid h

theorem frozen_outside (hprice : Priced price)
    (h : (level low volatility).toRat ≤ 0 ∨ price.toRat ≤ (level low volatility).toRat) :
    Declined (Evaluation._enter context reason price low volatility) := by
  intro d hd
  have htext : _text decimalPrecision (level low volatility) =
      .ok (PaperRunner._plain (toGrid 40 (level low volatility))) := by
    have henter := hd
    unfold Evaluation._enter at henter
    obtain ⟨text, htext, -⟩ := bind_eq_ok.mp henter
    change _text decimalPrecision (level low volatility) = .ok text at htext
    rw [htext, text_eq_ok htext]
  rw [frozenEnter_eq htext hprice.exponent,
    if_pos (h.imp toRat_rounded_nonpos hprice.le_rounded)] at hd
  exact declined_noTrade context d hd

section Inside
variable (hprice : Priced price) (hpos : 0 < (level low volatility).toRat)
  (hlt : (level low volatility).toRat < price.toRat)
include hprice hpos hlt

theorem text_inside : _text decimalPrecision (level low volatility) =
    .ok (PaperRunner._plain (toGrid 40 (level low volatility))) := by
  have hnonneg : 0 ≤ (toGrid 40 (level low volatility)).toRat :=
    le_toGrid (by exact_mod_cast onGrid_intCast 40 0) hpos.le
  have hle : (toGrid 40 (level low volatility)).toRat ≤ price.toRat :=
    toGrid_le hprice.fits.onGrid hlt.le
  apply text_of_lt
  rw [abs_of_nonneg hnonneg]
  exact hle.trans_lt hprice.lt

theorem frozen_declined (h : (rounded (level low volatility)).toRat ≤ 0 ∨
      price.toRat ≤ (rounded (level low volatility)).toRat) :
    ∃ d, Evaluation._enter context reason price low volatility = .ok d ∧ d.action = .noTrade := by
  rw [frozenEnter_eq (text_inside hprice hpos hlt) hprice.exponent, if_pos h]
  exact frozen_noTrade context (by decide)

/-- Between the levels the frozen evaluator enters when its target has the digits of a text. -/
theorem frozen_entered (hlow : 0 < (rounded (level low volatility)).toRat)
    (hhigh : (rounded (level low volatility)).toRat < price.toRat) (hreason : reason ∈ entryReasons) :
    (3 * price.toRat - 2 * (rounded (level low volatility)).toRat < 10 ^ 40 →
      ∃ (d : StrategyDecision) (s : LongSetup),
        Evaluation._enter context reason price low volatility = .ok d ∧
        s.toFields = bracket price (rounded (level low volatility)) ∧
        d.toFields = ⟨context, .enterLong, reason, some s⟩) ∧
    (10 ^ 40 ≤ 3 * price.toRat - 2 * (rounded (level low volatility)).toRat →
      ∃ e, Evaluation._enter context reason price low volatility = .error e) := by
  have hok := bracket_eq_ok hprice hlow hhigh
  rw [frozenEnter_eq (text_inside hprice hpos hlt) hprice.exponent,
    if_neg (by push Not; exact ⟨hlow, hhigh⟩)]
  unfold frozenSetup
  constructor
  · intro hbound
    have hvalid := hok.mpr ⟨onGrid_rounded _, hbound⟩
    have hbuilt : LongSetup.build (bracket price (rounded (level low volatility))) =
        .ok ⟨_, hvalid⟩ := construct_eq_ok.mpr ⟨hvalid, rfl⟩
    have hdecision : (⟨context, .enterLong, reason, some ⟨_, hvalid⟩⟩ :
        StrategyDecision.Fields).postInit = .ok () := by
      simp [StrategyDecision.Fields.postInit, StrategyDecision.Fields.consistent, hreason]
    refine ⟨⟨_, hdecision⟩, ⟨_, hvalid⟩, ?_, rfl, rfl⟩
    rw [hbuilt]
    change _decision ⟨context, .enterLong, reason, some ⟨_, hvalid⟩⟩ = _
    unfold _decision StrategyDecision.build
    rw [construct_eq_ok.mpr ⟨hdecision, rfl⟩]
    rfl
  · intro hbound
    cases hbuilt : LongSetup.build (bracket price (rounded (level low volatility))) with
    | ok s =>
      obtain ⟨hvalid, -⟩ := construct_eq_ok.mp hbuilt
      exact absurd (hok.mp hvalid).target (not_lt.mpr hbound)
    | error e => exact ⟨_, rfl⟩

end Inside

theorem returns_noTrade {context : StrategyContext} {reason : DecisionReason}
    (h : reason ∈ noTradeReasons) : ∃ d, Evaluation._noTrade context reason = .ok d := by
  obtain ⟨d, hd, -⟩ := frozen_noTrade context h
  exact ⟨d, hd⟩

/-- Short of a setup that an ablation gets to, the frozen evaluator returns. -/
theorem frozen_returns {s : StrategyId} {removed : Option EntryChange}
    (h : Reaches context removed s low volatility)
    (hnot : ¬ Reaches context none s low volatility) (hidentity : context.identity = s.identity) :
    ∃ d, s.evaluate context false none = .ok d := by
  cases h with
  | @trend regime average volatility recentLow classified averaged ready seen gate dip confirmation
      moved dipped known found =>
    have hvalidated : _validated trendPullbackIdentity Trend.label context false none = .ok none :=
      validated_flat hidentity
    change ∃ d, evaluateTrendPullback context false none = .ok d
    unfold evaluateTrendPullback
    rw [hvalidated, ok_bind, regime_of classified, ok_bind, (featureOf_of averaged).1, ok_bind]
    split
    · unfold Trend._search
      dsimp only
      split_ifs with hunknown hblocked habsent hconfirmed
      · exact returns_noTrade (by decide)
      · exact returns_noTrade (by decide)
      · exact returns_noTrade (by decide)
      · exact absurd (.trend classified averaged ready seen (.inr (not_not.mp hblocked)) dip
          (.inr hconfirmed) moved dipped known found) hnot
      · exact returns_noTrade (by decide)
    · exact returns_noTrade (by decide)
  | @breakout regime boundary volatility classified bounded moved ready seen known gate above
      location extension confirmation =>
    have hvalidated : _validated breakoutIdentity Breakout.label context false none = .ok none :=
      validated_flat hidentity
    change ∃ d, evaluateBreakout context false none = .ok d
    unfold evaluateBreakout
    rw [hvalidated, ok_bind, regime_of classified, ok_bind, (featureOf_of bounded).1, ok_bind,
      (featureOf_of moved).1, ok_bind]
    split
    · unfold Breakout._search
      dsimp only
      split_ifs with hunknown hblocked habsent hfar hconfirmed
      · exact returns_noTrade (by decide)
      · exact returns_noTrade (by decide)
      · exact returns_noTrade (by decide)
      · exact returns_noTrade (by decide)
      · rw [not_or] at hfar
        exact absurd (.breakout classified bounded moved ready seen known
          (.inr (not_not.mp hblocked)) above location
          (.inr (by simpa [extensionOk, close] using hfar.2)) (.inr hconfirmed)) hnot
      · exact returns_noTrade (by decide)
    · exact returns_noTrade (by decide)

end Frozen

/-- An ablation against the frozen evaluator. -/
structure Refines (frozen : Except EvaluatorError StrategyDecision) (ablated : Outcome)
    (inPosition : Bool) : Prop where
  returns : ∀ d, frozen = .ok d → ∃ d' record, ablated = .ok (d', record)
  entered : ∀ d, frozen = .ok d → d.action = .enterLong → ∃ d' record,
    ablated = .ok (d', record) ∧ d'.action = .enterLong ∧ d'.setup = d.setup ∧
      record.targetFilterPassed = true
  passed : ∀ d' record, ablated = .ok (d', record) → d'.action = .enterLong →
    record.targetFilterPassed = true →
      ∃ d, frozen = .ok d ∧ d.action = .enterLong ∧ d.setup = d'.setup
  held : inPosition = true → ∀ d, frozen = .ok d ↔ ∃ record, ablated = .ok (d, record)

/-- One filter that an experiment may remove from a candidate. -/
structure Removal where
  strategyId : StrategyId
  change : EntryChange
  registered : change ∈ strategyId.registered

def Removal.experiment (r : Removal) : Experiment := ⟨r.strategyId, [r.change]⟩

/-- A level between zero and the close fits a setup, or neither evaluation gets one from it. -/
def LevelsAgree (r : Removal) (context : StrategyContext) : Prop :=
  ∀ low volatility, Reaches context r.change r.strategyId low volatility →
    let raw := level low volatility
    0 < raw.toRat → raw.toRat < (close context).toRat →
      LevelFits (close context).toRat raw.toRat ∨
        Reaches context none r.strategyId low volatility ∧ 0 < (rounded raw).toRat ∧
          (rounded raw).toRat < (close context).toRat ∧
          10 ^ 40 ≤ 3 * (close context).toRat - 2 * (rounded raw).toRat

section Refinement
variable {r : Removal} {context : StrategyContext} {low volatility : Decimal}

theorem priced_close (context : StrategyContext) : Priced (close context) := by
  obtain ⟨-, -, -, hprices, -⟩ := context.snapshot.latestPrimary.facts
  obtain ⟨hpattern, hpos⟩ := hprices context.snapshot.latestPrimary.close (by simp)
  exact priced_of_pattern hpattern hpos

variable {frozen : Except EvaluatorError StrategyDecision} {ablated : Outcome}

theorem Ends.refines
    (h : Ends ablated) (hfrozen : Declined frozen) : Refines frozen ablated false := by
  obtain ⟨d, record, hd, haction⟩ := h
  constructor
  case returns => exact fun _ _ => ⟨d, record, hd⟩
  case entered =>
    intro e he henter
    rw [hfrozen e he] at henter
    cases henter
  case passed =>
    intro d' record' hd' henter
    rw [hd] at hd'
    cases hd'
    rw [haction] at henter
    cases henter
  case held => simp

variable {inPosition : Bool} {s : StrategyId} {change : EntryChange}

theorem Refines.of_errors (hfrozen : ∃ e, frozen = .error e) (hablated : ∃ e, ablated = .error e) :
    Refines frozen ablated inPosition := by
  obtain ⟨e, rfl⟩ := hfrozen
  obtain ⟨f, rfl⟩ := hablated
  constructor <;> simp

/-- What refuses an evaluation that returns does not refine it. -/
theorem Refines.of_error (h : Refines frozen ablated inPosition)
    (hablated : ∃ e, ablated = .error e) :
    ¬ ∃ d, frozen = .ok d := by
  rintro ⟨d, hd⟩
  obtain ⟨d', record, hd'⟩ := h.returns d hd
  obtain ⟨e, he⟩ := hablated
  rw [he] at hd'
  cases hd'

theorem setup_ext {s s' : LongSetup} (h : s.toFields = s'.toFields) : s = s' := by
  cases s
  cases s'
  simpa using h

theorem Asked.consistent {target : Target}
    (h : Asked context s change low volatility target) : target.Consistent := by
  cases h with
  | asked passed => exact consistent_asked ⟨change, false, false⟩ passed

theorem StrategyId.entryReason_mem (s : StrategyId) : s.entryReason ∈ entryReasons := by
  cases s <;> decide

theorem declined_of_not_reaches (h : Reaches context change s low volatility)
    (hnot : ¬ Reaches context none s low volatility) (hidentity : context.identity = s.identity) :
    Declined (s.evaluate context false none) := by
  apply frozen_of_not_reaches _ hidentity
  intro low' volatility' hreaches
  have hsame : Reaches context (some change) s low' volatility' := hreaches.mono
  obtain ⟨rfl, rfl⟩ := h.unique hsame
  exact hnot hreaches

variable (hidentity : context.identity = r.strategyId.identity)
  (h : Reaches context r.change r.strategyId low volatility)
include hidentity h

theorem refines_outside (houtside : (level low volatility).toRat ≤ 0 ∨
      (close context).toRat ≤ (level low volatility).toRat) :
    Refines (r.strategyId.evaluate context false none)
      (_evaluateExperiment r.experiment context false none) false := by
  obtain ⟨target, hasked, hablated⟩ := ablated_of_reaches h r.registered
  have hends : Ends (_evaluateExperiment r.experiment context false none) := by
    rw [Removal.experiment, hablated]
    exact enter_outside hasked.consistent houtside
  apply hends.refines
  by_cases hreaches : Reaches context none r.strategyId low volatility
  · rw [frozen_of_reaches hreaches hidentity]
    exact frozen_outside (priced_close context) houtside
  · exact declined_of_not_reaches h hreaches hidentity

section Inside
variable (hpos : 0 < (level low volatility).toRat)
  (hlt : (level low volatility).toRat < (close context).toRat)
include hpos hlt

/-- A level that fits gives both evaluations one setup. -/
theorem refines_of_fits (hfits : LevelFits (close context).toRat (level low volatility).toRat) :
    Refines (r.strategyId.evaluate context false none)
      (_evaluateExperiment r.experiment context false none) false := by
  obtain ⟨target, hasked, hablated⟩ := ablated_of_reaches h r.registered
  obtain ⟨d, s, hd, hs, hfields⟩ := (enter_inside (priced_close context) hasked.consistent hpos hlt
    r.strategyId.entryReason_mem).1 hfits
  rw [Removal.experiment, hablated, hd]
  have hsetup : d.setup = some s := by rw [hfields]
  have haction : d.action = .enterLong := by rw [hfields]
  have hrounded := rounded_of_onGrid hfits.onGrid
  have hvalue : (rounded (level low volatility)).toRat = (level low volatility).toRat := by
    rw [toRat_rounded, toRat_toGrid hfits.onGrid]
  by_cases hreaches : Reaches context none r.strategyId low volatility
  · obtain ⟨e, s', he, hs', hfields'⟩ := (frozen_entered (priced_close context) hpos hlt
      (by rw [hvalue]; exact hpos) (by rw [hvalue]; exact hlt) r.strategyId.entryReason_mem).1
      (by rw [hvalue]; exact hfits.target)
    have hsame : s' = s := setup_ext (by rw [hs', hs, hrounded])
    have hsetup' : e.setup = some s := by rw [hfields', hsame]
    have haction' : e.action = .enterLong := by rw [hfields']
    have hpassed : target.passed = true := by
      cases hasked with
      | asked passed hiff => exact hiff.mpr hreaches
    rw [frozen_of_reaches hreaches hidentity, he]
    constructor
    case returns => exact fun _ _ => ⟨d, _, rfl⟩
    case entered =>
      intro e' he' _
      cases he'
      exact ⟨d, _, rfl, haction, by rw [hsetup, hsetup'], hpassed⟩
    case passed =>
      intro d' record hd' _ _
      cases hd'
      exact ⟨e, rfl, haction', by rw [hsetup, hsetup']⟩
    case held => simp
  · have hdeclined := declined_of_not_reaches h hreaches hidentity
    constructor
    case returns => exact fun _ _ => ⟨d, _, rfl⟩
    case entered =>
      intro e he henter
      rw [hdeclined e he] at henter
      cases henter
    case passed =>
      intro d' record hd' _ hpassed
      cases hd'
      cases hasked with
      | asked passed hiff => exact absurd (hiff.mp hpassed) hreaches
    case held => simp

/-- A level that does not fit is refused by an ablation, and so it has to be by the other. -/
theorem refines_iff_of_not_fits
    (hfits : ¬ LevelFits (close context).toRat (level low volatility).toRat) :
    Refines (r.strategyId.evaluate context false none)
        (_evaluateExperiment r.experiment context false none) false ↔
      Reaches context none r.strategyId low volatility ∧
        0 < (rounded (level low volatility)).toRat ∧
        (rounded (level low volatility)).toRat < (close context).toRat ∧
        10 ^ 40 ≤ 3 * (close context).toRat - 2 * (rounded (level low volatility)).toRat := by
  obtain ⟨target, hasked, hablated⟩ := ablated_of_reaches h r.registered
  have hrefused : ∃ e, _evaluateExperiment r.experiment context false none = .error e := by
    rw [Removal.experiment, hablated]
    exact (enter_inside (priced_close context) hasked.consistent hpos hlt
      r.strategyId.entryReason_mem).2 hfits
  have hprice := priced_close context
  constructor
  · intro hrefines
    have hfails := hrefines.of_error hrefused
    have hreaches : Reaches context none r.strategyId low volatility := by
      by_contra hnot
      exact hfails (frozen_returns h hnot hidentity)
    rw [frozen_of_reaches hreaches hidentity] at hfails
    have hinside : ¬ ((rounded (level low volatility)).toRat ≤ 0 ∨
        (close context).toRat ≤ (rounded (level low volatility)).toRat) := by
      intro hdeclined
      obtain ⟨d, hd, -⟩ := frozen_declined hprice hpos hlt hdeclined
      exact hfails ⟨d, hd⟩
    rw [not_or, not_le, not_le] at hinside
    refine ⟨hreaches, hinside.1, hinside.2, not_lt.mp fun hbound => ?_⟩
    obtain ⟨d, -, hd, -⟩ := (frozen_entered hprice hpos hlt hinside.1 hinside.2
      r.strategyId.entryReason_mem).1 hbound
    exact hfails ⟨d, hd⟩
  · rintro ⟨hreaches, hlow, hhigh, hbound⟩
    refine .of_errors ?_ hrefused
    rw [frozen_of_reaches hreaches hidentity]
    exact (frozen_entered hprice hpos hlt hlow hhigh r.strategyId.entryReason_mem).2 hbound

end Inside

omit h in
theorem refines_flat :
    Refines (r.strategyId.evaluate context false none)
        (_evaluateExperiment r.experiment context false none) false ↔ LevelsAgree r context := by
  constructor
  · intro hrefines low volatility h raw hpos hlt
    by_cases hfits : LevelFits (close context).toRat raw.toRat
    · exact .inl hfits
    · exact .inr ((refines_iff_of_not_fits hidentity h hpos hlt hfits).mp hrefines)
  · intro hagree
    by_cases hreaches : ∃ low volatility, Reaches context r.change r.strategyId low volatility
    · obtain ⟨low, volatility, h⟩ := hreaches
      by_cases houtside : (level low volatility).toRat ≤ 0 ∨
          (close context).toRat ≤ (level low volatility).toRat
      · exact refines_outside hidentity h houtside
      rw [not_or, not_le, not_le] at houtside
      by_cases hfits : LevelFits (close context).toRat (level low volatility).toRat
      · exact refines_of_fits hidentity h houtside.1 houtside.2 hfits
      · rw [refines_iff_of_not_fits hidentity h houtside.1 houtside.2 hfits]
        exact (hagree low volatility h houtside.1 houtside.2).resolve_left hfits
    · push Not at hreaches
      rcases ablated_of_not_reaches hreaches hidentity with hends | ⟨hablated, hfrozen⟩
      · apply hends.refines
        apply frozen_of_not_reaches _ hidentity
        exact fun low volatility h => hreaches low volatility h.mono
      · exact .of_errors hfrozen hablated

omit h in
/-- With a position open an ablation asks the frozen evaluator. -/
theorem refines_held (setup : LongSetup) :
    Refines (r.strategyId.evaluate context true (some setup))
      (_evaluateExperiment r.experiment context true (some setup)) true := by
  have hablated : _evaluateExperiment r.experiment context true (some setup) =
      _frozen r.change (r.strategyId.evaluate context true (some setup)) := by
    cases r with
    | mk s change registered => cases s <;> rfl
  have hnot : ∀ d, r.strategyId.evaluate context true (some setup) = .ok d →
      d.action ≠ .enterLong := by
    intro d hd henter
    have hreturned : ∃ warmup, Returned warmup context true d := by
      cases r with
      | mk s change registered =>
        cases s with
        | trendPullback => exact ⟨_, (Trend.returned hd).2⟩
        | rangeBreakout => exact ⟨_, (Breakout.returned hd).2⟩
    obtain ⟨warmup, hreturned⟩ := hreturned
    have hentry := d.consistent
    rw [StrategyDecision.Fields.consistent, henter] at hentry
    rcases hreturned.held rfl with ⟨hreason, -⟩ | hexit | ⟨hnone, -⟩
    · rw [hreason] at hentry
      exact absurd hentry.2 (by decide)
    · rw [henter] at hexit
      cases hexit
    · rw [henter] at hnone
      cases hnone
  rw [hablated]
  unfold _frozen
  cases hfrozen : r.strategyId.evaluate context true (some setup) with
  | error e => exact .of_errors ⟨_, rfl⟩ ⟨_, rfl⟩
  | ok d =>
    have hrecord : _targetRecord r.change false false = .ok ⟨r.change, false, false⟩ := rfl
    rw [hrecord]
    constructor
    case returns => exact fun _ _ => ⟨d, _, rfl⟩
    case entered =>
      intro e he henter
      cases he
      exact absurd henter (hnot d hfrozen)
    case passed =>
      intro d' record hd' henter
      cases hd'
      exact absurd henter (hnot d hfrozen)
    case held =>
      intro _ e
      constructor
      · intro he
        cases he
        exact ⟨_, rfl⟩
      · rintro ⟨record, hd⟩
        cases hd
        rfl

end Refinement

/-- An ablation refines the frozen evaluator exactly where the levels of its stops agree. -/
theorem ablation_refines_iff (r : Removal) (snapshot : MarketSnapshot)
    (position : Option LongSetup) :
    let context := StrategyContext.of r.strategyId.identity snapshot
    Refines (r.strategyId.evaluate context position.isSome position)
        (_evaluateExperiment r.experiment context position.isSome position) position.isSome ↔
      (position = none → LevelsAgree r context) := by
  intro context
  have hidentity : context.identity = r.strategyId.identity := rfl
  cases position with
  | none => simpa using refines_flat hidentity
  | some setup => simpa using refines_held hidentity setup

section Sample
open PaperRunner (sampleContext sampleEvent sampleAverage sampleVolatility sampleLow sampleAtr
  regime_sample average_sample volatility_sample low_sample decision_sample)

theorem not_onGrid_of_digit {d : Decimal} {f : ℕ} (hexponent : d.exponent < -f)
    (hdigit : d.coefficient % 10 ≠ 0) : ¬ OnGrid f d.toRat := by
  intro h
  obtain ⟨n, hn⟩ := h.eq_mul
  obtain ⟨k, hk⟩ : ∃ k : ℕ, -(f : ℤ) = d.exponent + (k + 1 : ℕ) :=
    ⟨(-f - d.exponent - 1).toNat, by omega⟩
  have hten : (10 : ℚ) ^ d.exponent ≠ 0 := by positivity
  have hint : d.int = n * 10 ^ (k + 1) := by
    rw [toRat, hk, zpow_add₀ (by norm_num), mul_comm ((10 : ℚ) ^ d.exponent), ← mul_assoc,
      mul_left_inj' hten, zpow_natCast] at hn
    exact_mod_cast hn
  have hdvd : (10 : ℤ) ∣ d.int := by
    rw [hint, pow_succ]
    exact ⟨n * 10 ^ k, by ring⟩
  have hnat := Int.natAbs_dvd_natAbs.mpr hdvd
  rw [natAbs_int] at hnat
  exact hdigit (Nat.mod_eq_zero_of_dvd hnat)

theorem enter_refused_sample : ∃ e, _enter sampleContext .trendPullbackEntry
    ⟨.removeConfirmation, true, !true⟩ (ofText "101") ⟨false, 100, 0⟩ sampleAtr = .error e := by
  have hclose : close sampleContext = ofText "101" := by decide +kernel
  have hprice : Priced (ofText "101") := by
    rw [← hclose]
    exact priced_close sampleContext
  have hpos : (0 : Decimal) < level ⟨false, 100, 0⟩ sampleAtr := by decide +kernel
  have hlt : level ⟨false, 100, 0⟩ sampleAtr < ofText "101" := by decide +kernel
  have hfits : ¬ LevelFits (ofText "101").toRat (level ⟨false, 100, 0⟩ sampleAtr).toRat :=
    fun h => not_onGrid_of_digit (by decide +kernel) (by decide +kernel) h.onGrid
  rw [lt_def, toRat_zero] at hpos
  exact (enter_inside hprice (consistent_asked ⟨.removeConfirmation, false, false⟩ true) hpos
    (lt_def.mp hlt) (by decide)).2 hfits

/-- A fourteenth of a quote has no last digit. -/
theorem refused_sample : (_evaluateExperiment ⟨.trendPullback, [.removeConfirmation]⟩ sampleContext
    false none).isOk = false := by
  obtain ⟨r, hr, hup, haligned⟩ := regime_sample
  have hregime : ∀ message, _regime message sampleContext = .ok r := by
    intro message
    unfold _regime
    rw [mapError_eq_ok.mp hr]
    rfl
  have hfeature : ∀ message (f : FeatureResult), _feature message (.ok f) = .ok f :=
    fun _ _ => rfl
  have hready : r.reason ≠ .insufficientHistory ∧ sampleAverage.available := by
    rw [haligned]
    exact ⟨by decide, rfl⟩
  have haverage : sampleAverage.number hready.2 = ⟨false, 10005, -2⟩ := rfl
  have hlevels : sampleVolatility.available ∧ sampleLow.available := ⟨rfl, rfl⟩
  have hvolatility : sampleVolatility.number hlevels.1 = sampleAtr := Option.get_some _ _
  have hrecent : sampleLow.number hlevels.2 = ⟨false, 100, 0⟩ := rfl
  have hclose : sampleContext.snapshot.latestPrimary.close = "101" := by decide +kernel
  have hlow : ¬ (⟨false, 10005, -2⟩ < ofText sampleContext.snapshot.latestPrimary.low ∨
      ofText "101" ≤ ⟨false, 10005, -2⟩) := by decide +kernel
  have hconfirmed : decide (_confirmed sampleContext.snapshot.context) = true := by decide +kernel
  obtain ⟨e, hentry⟩ := enter_refused_sample
  change (_evaluateTrend sampleContext false none (some .removeConfirmation)).isOk = false
  unfold _evaluateTrend
  dsimp only
  rw [hregime, ok_bind, average_sample, hfeature, ok_bind, dif_pos hready, haverage]
  unfold _trendSearch _gateRegime
  rw [hclose, hup, if_neg (by decide), if_neg (by decide), if_neg (by decide)]
  dsimp only
  rw [if_neg hlow]
  unfold _trendConfirmation
  rw [if_pos rfl, hconfirmed]
  unfold _trendLevels
  dsimp only
  rw [volatility_sample, hfeature, ok_bind, low_sample, hfeature, ok_bind, dif_pos hlevels,
    hvolatility, hrecent]
  unfold Target.asked
  rw [hentry]
  rfl
/-- An ablation refuses what the frozen evaluator enters. -/
theorem ablation_refuses_entry : ¬ ∀ (r : Removal) (snapshot : MarketSnapshot)
    (position : Option LongSetup),
    let context := StrategyContext.of r.strategyId.identity snapshot
    Refines (r.strategyId.evaluate context position.isSome position)
      (_evaluateExperiment r.experiment context position.isSome position) position.isSome := by
  intro h
  have hrefines := h ⟨.trendPullback, .removeConfirmation, by decide⟩ (sampleEvent 0).snapshot none
  obtain ⟨d, hd, -⟩ := decision_sample
  obtain ⟨d', record, hd'⟩ := hrefines.returns d hd
  have hrefused := refused_sample
  change _evaluateExperiment ⟨.trendPullback, [.removeConfirmation]⟩ sampleContext false none =
    .ok (d', record) at hd'
  rw [hd'] at hrefused
  cases hrefused

end Sample

end Ablation

end TradingLab
