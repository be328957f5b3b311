import TradingLab.Decimal.Sign
import TradingLab.StrategyLab.AblationLaw

/-!
# The setup of an ablation

A setup takes its levels as plain texts of forty digits before and after the
point. The frozen evaluators round the level of the stop to forty digits after it;
the ablations do not, so that a level with more digits is refused with its setup.
-/

namespace TradingLab

open Decimal Evaluation

namespace Ablation

/-- The texts of a setup. -/
def bracket (close invalidation : Decimal) : LongSetup.Fields where
  referencePrice := PaperRunner._plain close
  invalidationPrice := PaperRunner._plain invalidation
  targetPrice := PaperRunner._plain (add decimalPrecision close
    (mul decimalPrecision (sub decimalPrecision close invalidation) rewardRisk))

/-- The level of a stop and its target have the digits of a plain text. -/
structure LevelFits (close raw : ℚ) : Prop where
  onGrid : OnGrid 40 raw
  target : 3 * close - 2 * raw < 10 ^ 40

section Bracket
variable {price invalidation : Decimal}

theorem positive_of_pattern {value : String} (field : String) (hpattern : decimalPattern value)
    (hpos : 0 < (ofText value).toRat) : _positive value field = .ok (ofText value) := by
  unfold _positive
  rw [raiseIf_neg (by simp [hpattern]), ok_bind]
  dsimp only
  rw [raiseIf_neg (by rw [le_def, toRat_zero]; exact not_le.mpr hpos)]
  rfl

structure Priced (price : Decimal) : Prop where
  exponent : -40 ≤ price.exponent
  pos : 0 < price.toRat
  fits : Fits 40 40 price.toRat

theorem Priced.lt (h : Priced price) : price.toRat < 10 ^ 40 := by
  have hlt := h.fits.lt
  rwa [abs_of_pos h.pos] at hlt

variable (hprice : Priced price) (hpos : 0 < invalidation.toRat)
  (hlt : invalidation.toRat < price.toRat)
include hprice hpos hlt

/-- On the grid the target is exact. -/
theorem toRat_target (hgrid : OnGrid 40 invalidation.toRat) :
    (add decimalPrecision price (mul decimalPrecision (sub decimalPrecision price invalidation)
      rewardRisk)).toRat = 3 * price.toRat - 2 * invalidation.toRat := by
  have hp : 0 < decimalPrecision := by decide
  have hprec : decimalPrecision = 256 := rfl
  have htwo : rewardRisk.toRat = 2 := by
    have hvalue : rewardRisk = ⟨false, 2, 0⟩ := by decide
    rw [hvalue]
    norm_num [toRat, int]
  have htwoFits : Fits 0 1 rewardRisk.toRat := by
    rw [htwo]
    exact ⟨by exact_mod_cast onGrid_intCast 0 2, by norm_num⟩
  have hlevel : Fits 40 40 invalidation.toRat := by
    refine ⟨hgrid, ?_⟩
    rw [abs_of_pos hpos]
    exact hlt.trans hprice.lt
  have hrisk : Fits 40 41 (price.toRat - invalidation.toRat) := hprice.fits.sub hlevel
  have hproduct : Fits 40 42 ((price.toRat - invalidation.toRat) * 2) := by
    have hmul := hrisk.mul htwoFits
    rwa [htwo] at hmul
  have hsum : Fits 40 43 (price.toRat + (price.toRat - invalidation.toRat) * 2) :=
    (hprice.fits.mono le_rfl (by norm_num)).add hproduct
  have hsub := toRat_sub hp (hrisk.representable (by norm_num [hprec]))
  have hmul : (mul decimalPrecision (sub decimalPrecision price invalidation) rewardRisk).toRat =
      (price.toRat - invalidation.toRat) * 2 := by
    rw [toRat_mul hp, hsub, htwo]
    rw [hsub, htwo]
    exact hproduct.representable (by norm_num [hprec])
  rw [toRat_add hp, hmul]
  · ring
  · rw [hmul]
    exact hsum.representable (by norm_num [hprec])

/-- When a setup takes its texts. -/
theorem bracket_eq_ok : (bracket price invalidation).postInit = .ok () ↔
    LevelFits price.toRat invalidation.toRat := by
  have hplain : ∀ d : Decimal, (ofText (PaperRunner._plain d)).toRat = d.toRat :=
    toRat_ofText_trimFraction
  have hpattern : ∀ {d : Decimal}, 0 < d.toRat → d.toRat < 10 ^ 40 →
      (decimalPattern (PaperRunner._plain d) = true ↔ OnGrid 40 d.toRat) := fun h0 h40 =>
    unsignedText_trimFraction (by norm_num) (negative_of_pos h0) h40
  constructor
  · intro h
    obtain ⟨⟨-, hinvalidation, htarget⟩, -⟩ := LongSetup.facts ⟨bracket price invalidation, h⟩
    have hgrid := (hpattern hpos (hlt.trans hprice.lt)).mp hinvalidation
    refine ⟨hgrid, ?_⟩
    have htext : (ofText (bracket price invalidation).targetPrice).toRat =
        3 * price.toRat - 2 * invalidation.toRat := by
      rw [← toRat_target hprice hpos hlt hgrid]
      exact hplain _
    have hbound := (decimalPattern_bounds htarget).2.2.2
    dsimp only at hbound
    rw [htext] at hbound
    exact hbound
  · rintro ⟨hgrid, hbound⟩
    have htarget := toRat_target hprice hpos hlt hgrid
    have habove : price.toRat < 3 * price.toRat - 2 * invalidation.toRat := by linarith
    have htargetPos := hprice.pos.trans habove
    have hgridTarget : OnGrid 40 (3 * price.toRat - 2 * invalidation.toRat) := by
      have hthree := (onGrid_intCast 0 3).mul hprice.fits.onGrid
      have htwo := (onGrid_intCast 0 2).mul hgrid
      exact_mod_cast hthree.sub htwo
    rw [← htarget] at hgridTarget hbound htargetPos habove
    have hreference := positive_of_pattern "reference_price"
      ((hpattern hprice.pos hprice.lt).mpr hprice.fits.onGrid) (by rw [hplain]; exact hprice.pos)
    have hinvalidation := positive_of_pattern "invalidation_price"
      ((hpattern hpos (hlt.trans hprice.lt)).mpr hgrid) (by rw [hplain]; exact hpos)
    have htext := positive_of_pattern "target_price"
      ((hpattern htargetPos hbound).mpr hgridTarget) (by rw [hplain]; exact htargetPos)
    unfold LongSetup.Fields.postInit bracket
    dsimp only
    rw [hreference, ok_bind, hinvalidation, ok_bind, htext, ok_bind, raiseIf_eq_ok, not_not]
    rw [lt_def, lt_def, hplain, hplain, hplain]
    exact ⟨hlt, habove⟩

end Bracket

theorem priced_of_pattern {text : String} (hpattern : decimalPattern text)
    (hpos : 0 < (ofText text).toRat) : Priced (ofText text) := by
  obtain ⟨hexponent, -, -, hlt⟩ := decimalPattern_bounds hpattern
  refine ⟨hexponent, hpos, onGrid_decimalPattern hpattern, ?_⟩
  rwa [abs_of_pos hpos]

section Ablated
variable {context : StrategyContext} {reason : DecisionReason} {target : Target}
  {price low volatility raw : Decimal}

theorem plain_of_ne (h : raw.toRat ≠ 0) : _plain raw = PaperRunner._plain raw :=
  if_neg (by rw [equiv_def, toRat_zero]; exact h)

theorem toRat_plain (raw : Decimal) : (ofText (_plain raw)).toRat = raw.toRat :=
  Crisis.toRat_plain raw

theorem outside_iff (invalidation : Decimal) :
    (invalidation ≤ 0 ∨ sub decimalPrecision price invalidation ≤ 0) ↔
      invalidation.toRat ≤ 0 ∨ price.toRat ≤ invalidation.toRat := by
  rw [sub_le_zero_iff (by decide), le_def, le_def, toRat_zero]

/-- The texts of the levels, when they are positive and in order. -/
theorem bracket_texts (hprice : 0 < price.toRat) (hpos : 0 < raw.toRat)
    (hlt : raw.toRat < price.toRat) :
    (⟨_plain price, _plain raw, _plain (add decimalPrecision price
      (mul decimalPrecision (sub decimalPrecision price raw) rewardRisk))⟩ : LongSetup.Fields) =
      bracket price raw := by
  have hrisk : 0 < (sub decimalPrecision price raw).toRat := by
    have hprec : 0 < decimalPrecision := by decide
    have hle := sub_le_zero_iff hprec price raw
    rw [le_def, le_def, toRat_zero, ← not_lt, ← not_lt, not_iff_not] at hle
    exact hle.mpr hlt
  have hreward : 0 < rewardRisk.toRat := by
    rw [toRat_pos_iff]
    decide
  have htarget : (add decimalPrecision price (mul decimalPrecision
      (sub decimalPrecision price raw) rewardRisk)).toRat ≠ 0 := by
    apply ne_of_gt
    rw [add, toRat_round_pos (by decide), toRat_addExact]
    have hmul : 0 < (mul decimalPrecision (sub decimalPrecision price raw) rewardRisk).toRat := by
      rw [mul, toRat_round_pos (by decide), toRat_mulExact]
      exact mul_pos hrisk hreward
    linarith
  rw [plain_of_ne hprice.ne', plain_of_ne hpos.ne', plain_of_ne htarget]
  rfl

theorem setup_of_inside (hprice : 0 < price.toRat) (hpos : 0 < raw.toRat)
    (hlt : raw.toRat < price.toRat) : _setup price raw rewardRisk =
      ((LongSetup.build (bracket price raw)).mapError .contract).map some := by
  rw [← bracket_texts hprice hpos hlt]
  unfold _setup
  dsimp only
  rw [if_neg (by rw [outside_iff]; push Not; exact ⟨hpos, hlt⟩)]
  generalize LongSetup.build _ = built
  cases built <;> rfl

theorem enter_outside (htarget : target.Consistent)
    (h : (level low volatility).toRat ≤ 0 ∨ price.toRat ≤ (level low volatility).toRat) :
    Ends (_enter context reason target price low volatility) := by
  rw [← toRat_plain (level low volatility), ← outside_iff] at h
  unfold _enter _setup
  dsimp only
  rw [if_pos h]
  have habsent : DecisionReason.setupAbsent ∈ noTradeReasons := by decide
  change Ends (_noTrade context .setupAbsent target)
  exact ends_noTrade habsent htarget

/-- Between the levels the setup decides. -/
theorem enter_inside (hprice : Priced price) (htarget : target.Consistent)
    (hpos : 0 < (level low volatility).toRat) (hlt : (level low volatility).toRat < price.toRat)
    (hreason : reason ∈ entryReasons) :
    let invalidation := ofText (PaperRunner._plain (level low volatility))
    (LevelFits price.toRat (level low volatility).toRat → ∃ (d : StrategyDecision) (s : LongSetup),
      _enter context reason target price low volatility =
        .ok (d, ⟨target.change, target.passed, target.blocked⟩) ∧
      s.toFields = bracket price invalidation ∧ d.toFields = ⟨context, .enterLong, reason, some s⟩) ∧
    (¬ LevelFits price.toRat (level low volatility).toRat →
      ∃ e, _enter context reason target price low volatility = .error e) := by
  intro invalidation
  have hvalue : invalidation.toRat = (level low volatility).toRat := toRat_ofText_trimFraction _
  rw [← hvalue] at hpos hlt ⊢
  have hsetup := setup_of_inside hprice.pos hpos hlt
  have hok := bracket_eq_ok hprice hpos hlt
  have htext : ofText (_plain (level low volatility)) = invalidation := by
    rw [plain_of_ne (by rw [← hvalue]; exact hpos.ne')]
  unfold _enter
  dsimp only
  rw [htext, hsetup]
  constructor
  · intro hfits
    have hvalid := hok.mpr hfits
    have hbuilt : LongSetup.build (bracket price invalidation) = .ok ⟨_, hvalid⟩ :=
      construct_eq_ok.mpr ⟨hvalid, rfl⟩
    have hdecision : (⟨context, .enterLong, reason, some ⟨_, hvalid⟩⟩ :
        StrategyDecision.Fields).postInit = .ok () := by
      simp [StrategyDecision.Fields.postInit, StrategyDecision.Fields.consistent, hreason]
    have hdecided : StrategyDecision.build ⟨context, .enterLong, reason, some ⟨_, hvalid⟩⟩ =
        .ok ⟨_, hdecision⟩ := construct_eq_ok.mpr ⟨hdecision, rfl⟩
    refine ⟨⟨_, hdecision⟩, ⟨_, hvalid⟩, ?_, rfl, rfl⟩
    rw [hbuilt]
    change _decide ⟨context, .enterLong, reason, some ⟨_, hvalid⟩⟩ target = _
    unfold _decide
    rw [hdecided, htarget.record]
    rfl
  · intro hnot
    cases hbuilt : LongSetup.build (bracket price invalidation) with
    | ok s =>
      obtain ⟨hvalid, -⟩ := construct_eq_ok.mp hbuilt
      exact absurd (hok.mp hvalid) hnot
    | error e => exact ⟨_, rfl⟩

end Ablated

section Frozen
variable {context : StrategyContext} {reason : DecisionReason} {price low volatility raw : Decimal}

theorem text_eq_ok {prec : ℕ} {text : String} (h : _text prec raw = .ok text) :
    text = PaperRunner._plain (toGrid 40 raw) := by
  unfold _text Decimal._plain at h
  by_cases hlong : raw.exponent < -40
  · have hgrid : toGrid 40 raw = rescale (-40) raw := if_pos hlong
    rw [if_pos hlong, quantize?] at h
    rw [hgrid]
    split_ifs at h
    · cases h
      rfl
    · cases h
  · have hgrid : toGrid 40 raw = raw := if_neg hlong
    rw [if_neg hlong] at h
    rw [hgrid]
    cases h
    rfl

theorem text_of_exponent {prec : ℕ} (h : -40 ≤ raw.exponent) :
    _text prec raw = .ok (PaperRunner._plain raw) := by
  unfold _text
  rw [_plain_of_exponent h]
  rfl

theorem text_of_lt (h : |(toGrid 40 raw).toRat| < 10 ^ 40) :
    _text decimalPrecision raw = .ok (PaperRunner._plain (toGrid 40 raw)) := by
  unfold _text
  rw [_plain_of_lt (by decide) h (by decide)]
  rfl

def rounded (raw : Decimal) : Decimal := ofText (PaperRunner._plain (toGrid 40 raw))

theorem toRat_rounded (raw : Decimal) : (rounded raw).toRat = (toGrid 40 raw).toRat :=
  toRat_ofText_trimFraction _

theorem onGrid_rounded (raw : Decimal) : OnGrid 40 (rounded raw).toRat := by
  rw [toRat_rounded]
  exact onGrid_toGrid 40 raw

theorem exponent_rounded (raw : Decimal) : -40 ≤ (rounded raw).exponent := by
  have hlast := (onGrid_iff_trimmed (toGrid 40 raw)).mp (onGrid_toGrid 40 raw)
  have htrimmed : rounded raw = (toGrid 40 raw).trimmed := by
    unfold rounded PaperRunner._plain
    rw [trimFraction_fixed, ofText_fixed (exponent_trimmed _)]
  rw [htrimmed]
  push_cast at hlast
  omega

theorem rounded_of_onGrid (h : OnGrid 40 raw.toRat) :
    rounded raw = ofText (PaperRunner._plain raw) := by
  unfold rounded PaperRunner._plain
  rw [trimFraction_congr (negative_toGrid 40 raw) (toRat_toGrid h)]

theorem exponent_target {invalidation : Decimal} (hprice : -40 ≤ price.exponent)
    (hlevel : -40 ≤ invalidation.exponent) : -40 ≤ (add decimalPrecision price
      (mul decimalPrecision (sub decimalPrecision price invalidation) rewardRisk)).exponent := by
  have hadd : ∀ a b : Decimal, min a.exponent b.exponent ≤ (add decimalPrecision a b).exponent := by
    intro a b
    refine le_trans ?_ (exponent_le_round _ _)
    unfold addExact
    dsimp only
    split_ifs <;> exact le_rfl
  have hsub := hadd price (copyNegate invalidation)
  have hmul : (sub decimalPrecision price invalidation).exponent + rewardRisk.exponent ≤
      (mul decimalPrecision (sub decimalPrecision price invalidation) rewardRisk).exponent :=
    exponent_le_round _ _
  have hreward : rewardRisk.exponent = 0 := by decide
  have hnegate : (copyNegate invalidation).exponent = invalidation.exponent := rfl
  have htarget := hadd price
    (mul decimalPrecision (sub decimalPrecision price invalidation) rewardRisk)
  rw [hnegate] at hsub
  rw [hreward] at hmul
  change _ ≤ (sub decimalPrecision price invalidation).exponent at hsub
  omega

/-- The setup of the frozen evaluators. -/
def frozenSetup (context : StrategyContext) (reason : DecisionReason)
    (price invalidation : Decimal) : Except EvaluatorError StrategyDecision := do
  let setup ← (LongSetup.build (bracket price invalidation)).mapError .contract
  _decision ⟨context, .enterLong, reason, some setup⟩

/-- The frozen evaluators end with the same setup, from the rounded level. -/
theorem frozenEnter_eq (htext : _text decimalPrecision (level low volatility) =
      .ok (PaperRunner._plain (toGrid 40 (level low volatility))))
    (hprice : -40 ≤ price.exponent) :
    Evaluation._enter context reason price low volatility =
      if (rounded (level low volatility)).toRat ≤ 0 ∨
          price.toRat ≤ (rounded (level low volatility)).toRat then
        Evaluation._noTrade context .setupAbsent
      else frozenSetup context reason price (rounded (level low volatility)) := by
  have hlevel := exponent_rounded (level low volatility)
  have hwritten : ∀ d : Decimal, -40 ≤ d.exponent →
      _text defaultPrecision d = .ok (PaperRunner._plain d) := fun d => text_of_exponent
  have hrounded : ofText (PaperRunner._plain (toGrid 40 (level low volatility))) =
      rounded (level low volatility) := rfl
  unfold Evaluation._enter
  change (do
    let text ← _text decimalPrecision (level low volatility)
    _) = _
  rw [htext, ok_bind]
  dsimp only
  rw [hrounded]
  generalize rounded (level low volatility) = invalidation at hlevel ⊢
  simp only [outside_iff]
  apply if_congr Iff.rfl rfl
  rw [hwritten _ hprice, ok_bind, hwritten _ hlevel, ok_bind,
    hwritten _ (exponent_target hprice hlevel), ok_bind]
  unfold frozenSetup bracket
  rfl

end Frozen

end Ablation

end TradingLab
