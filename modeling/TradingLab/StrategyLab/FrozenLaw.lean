import TradingLab.StrategyLab.AblationRefinement

/-!
# The law of the frozen evaluators

A frozen evaluator returns a decision for every context with a history that its features
accept, but for an entry whose target has more digits than a price may have. Every setup
pays twice its risk, exactly.
-/

namespace TradingLab

open Decimal Evaluation List Features

namespace Features

theorem precision_pos : 0 < decimalPrecision := by decide

theorem representable_prices {k : ℕ} (hk : k ≤ maxFeaturePeriod) :
    Representable decimalPrecision (k * 10 ^ 40) := by
  refine ⟨k, 40, ?_, by norm_num⟩
  have hlt : (k : ℤ) < 10 ^ 5 := by
    have hmax : maxFeaturePeriod = 10000 := rfl
    omega
  rw [abs_of_nonneg (Int.natCast_nonneg k)]
  exact hlt.trans_le (pow_le_pow_right₀ (by norm_num) (by decide))

theorem representable_price : Representable decimalPrecision (10 ^ 40) := by
  have h := representable_prices (k := 1) (by decide)
  rwa [Nat.cast_one, one_mul] at h

theorem within_price {c : Candle} {text : String} (h : text ∈ [c.open', c.high, c.low, c.close]) :
    Within (10 ^ 40) (ofText text) := by
  obtain ⟨-, -, -, hprices, -⟩ := c.facts
  obtain ⟨hpattern, hpos⟩ := hprices text h
  exact ⟨hpos.le, (decimalPattern_bounds hpattern).2.2.2.le⟩

theorem Within.larger {m : ℚ} {a b : Decimal} (ha : Within m a) (hb : Within m b) :
    Within m (Decimal.larger a b) := by
  unfold Decimal.larger
  split
  · exact hb
  · exact ha

theorem within_trueRange (previous current : Candle) :
    Within (10 ^ 40) (_trueRange previous current) := by
  obtain ⟨-, -, -, -, -, -, hlow, -, hhigh, -⟩ := current.facts
  have hh : Within (10 ^ 40) (ofText current.high) := within_price (c := current) (by simp)
  have hl : Within (10 ^ 40) (ofText current.low) := within_price (c := current) (by simp)
  have hc : Within (10 ^ 40) (ofText previous.close) := within_price (c := previous) (by simp)
  have hexact : (addExact (ofText current.high) (copyNegate (ofText current.low))).toRat =
      (ofText current.high).toRat - (ofText current.low).toRat := by
    rw [toRat_addExact, toRat_copyNegate, sub_eq_add_neg]
  have hrange : Within (10 ^ 40)
      (sub decimalPrecision (ofText current.high) (ofText current.low)) := by
    constructor
    · exact le_round precision_pos (representable_zero _) (by rw [hexact]; linarith)
    · exact round_le precision_pos representable_price (by rw [hexact]; linarith [hh.le, hl.nonneg])
  exact Within.larger (Within.larger hrange (hh.distance precision_pos hc representable_price))
    (hl.distance precision_pos hc representable_price)

theorem toRat_natural (k : ℕ) : (⟨false, k, 0⟩ : Decimal).toRat = k := by
  rw [toRat_mk, if_neg Bool.false_ne_true, one_mul, zpow_zero, mul_one]

section Period
variable {period : ℕ} (hperiod : 1 ≤ period) (hmax : period ≤ maxFeaturePeriod)
include hperiod hmax

theorem within_mean {ds : List Decimal} (h : ∀ d ∈ ds, Within (10 ^ 40) d)
    (hlength : ds.length ≤ period) : Within (10 ^ 40) (_mean ds period) := by
  have hpos : (0 : ℚ) < period := by exact_mod_cast hperiod
  have hsum := Within.sum precision_pos h fun k hk => representable_prices (by omega)
  have hle : (ds.length : ℚ) * 10 ^ 40 ≤ period * 10 ^ 40 := by
    gcongr
  have hwithin : Within (period * 10 ^ 40) (sum decimalPrecision ds) :=
    ⟨hsum.nonneg, hsum.le.trans hle⟩
  have hshare : (period * 10 ^ 40 : ℚ) / (⟨false, period, 0⟩ : Decimal).toRat = 10 ^ 40 := by
    rw [toRat_natural, mul_div_cancel_left₀ _ hpos.ne']
  have hmean := hwithin.quotient precision_pos (b := ⟨false, period, 0⟩)
    (by rw [toRat_natural]; exact hpos) (by rw [hshare]; exact representable_price)
  rwa [hshare] at hmean

theorem within_smoothed {current value : Decimal} (hcurrent : Within (10 ^ 40) current)
    (hvalue : Within (10 ^ 40) value) : Within (10 ^ 40) (_smoothed period current value) := by
  have hpos : (0 : ℚ) < period := by exact_mod_cast hperiod
  have hweight : Within ((period - 1 : ℕ) : ℚ) ⟨false, period - 1, 0⟩ :=
    ⟨by rw [toRat_natural]; positivity, (toRat_natural _).le⟩
  have hproduct := hcurrent.mul precision_pos hweight (by
    rw [mul_comm]
    exact representable_prices (by omega))
  have htotal : (10 : ℚ) ^ 40 * ((period - 1 : ℕ) : ℚ) + 10 ^ 40 = period * 10 ^ 40 := by
    rw [Nat.cast_sub hperiod]
    push_cast
    ring
  have hsum := hproduct.add precision_pos hvalue (by rw [htotal]; exact representable_prices hmax)
  rw [htotal] at hsum
  have hshare : (period * 10 ^ 40 : ℚ) / (⟨false, period, 0⟩ : Decimal).toRat = 10 ^ 40 := by
    rw [toRat_natural, mul_div_cancel_left₀ _ hpos.ne']
  have hmean := hsum.quotient precision_pos (b := ⟨false, period, 0⟩)
    (by rw [toRat_natural]; exact hpos) (by rw [hshare]; exact representable_price)
  rwa [hshare] at hmean

theorem within_foldl_smoothed {rest : List Decimal} {current : Decimal}
    (hcurrent : Within (10 ^ 40) current) (h : ∀ d ∈ rest, Within (10 ^ 40) d) :
    Within (10 ^ 40) (rest.foldl (_smoothed period) current) := by
  induction rest generalizing current with
  | nil => exact hcurrent
  | cons d rest ih =>
    exact ih (within_smoothed hperiod hmax hcurrent (h d mem_cons_self))
      fun e he => h e (mem_cons_of_mem d he)

theorem within_averageTrueRange (visible : List Candle) :
    Within (10 ^ 40) (_averageTrueRange period visible) := by
  have hranges : ∀ d ∈ zipWith _trueRange visible visible.tail, Within (10 ^ 40) d := by
    intro d hd
    rw [← map_uncurry_zip_eq_zipWith, mem_map] at hd
    obtain ⟨move, -, rfl⟩ := hd
    exact within_trueRange move.1 move.2
  exact within_foldl_smoothed hperiod hmax
    (within_mean hperiod hmax (fun d hd => hranges d (mem_of_mem_take hd))
      (length_take_le _ _))
    fun d hd => hranges d (mem_of_mem_drop hd)

end Period

theorem within_foldl_smaller {m : ℚ} {ds : List Decimal} {d : Decimal} (hd : Within m d)
    (h : ∀ e ∈ ds, Within m e) : Within m (ds.foldl smaller d) := by
  induction ds generalizing d with
  | nil => exact hd
  | cons e ds ih =>
    have hsmaller : Within m (smaller d e) := by
      unfold smaller
      split
      · exact h e mem_cons_self
      · exact hd
    exact ih hsmaller fun x hx => h x (mem_cons_of_mem e hx)

theorem within_minimum {m : ℚ} {ds : List Decimal} (hm : 0 ≤ m) (h : ∀ d ∈ ds, Within m d) :
    Within m (minimum ds) := by
  cases ds with
  | nil => exact ⟨toRat_zero.ge, toRat_zero.le.trans hm⟩
  | cons d ds =>
    exact within_foldl_smaller (h d mem_cons_self) fun e he => h e (mem_cons_of_mem d he)

theorem number_eq_measure {name : String} {period required : ℕ} {measure : List Candle → Decimal}
    {candles : List Candle} {t : ℤ} {r : FeatureResult}
    (h : _feature name period required measure candles t = .ok r) (hr : r.available) :
    ∃ visible, (∀ c ∈ visible, c ∈ candles) ∧ r.number hr = measure visible := by
  unfold _feature at h
  obtain ⟨p, -, h⟩ := bind_eq_ok.mp h
  obtain ⟨seen, hseen, h⟩ := bind_eq_ok.mp h
  refine ⟨seen, ?_, ?_⟩
  · intro c hc
    rw [visible_eq_ok hseen] at hc
    exact mem_of_mem_filter hc
  · unfold _result at h
    split at h
    · obtain ⟨-, rfl⟩ := construct_eq_ok.mp h
      cases hr
    · obtain ⟨-, rfl⟩ := construct_eq_ok.mp h
      rfl

end Features

theorem validateCandles_prefix {symbol : Symbol} {interval : Interval} {t : ℤ} {previous : Option ℤ}
    {candles rest : List Candle}
    (h : _validateCandles symbol interval t previous (candles ++ rest) = .ok ()) :
    _validateCandles symbol interval t previous candles = .ok () := by
  induction candles generalizing previous with
  | nil => rfl
  | cons c candles ih =>
    rw [cons_append] at h
    unfold _validateCandles at h ⊢
    simp only [raiseIf_bind_eq_ok] at h ⊢
    exact ⟨h.1, h.2.1, h.2.2.1, ih h.2.2.2⟩

theorem series_of_validateCandles {symbol : Symbol} {interval : Interval} {t : ℤ} {first : Candle}
    (hsymbol : first.symbol = symbol) (hinterval : first.interval = interval)
    {previous : Option ℤ} {candles : List Candle}
    (h : _validateCandles symbol interval t previous candles = .ok ()) :
    Features._series first previous candles = .ok () := by
  induction candles generalizing previous with
  | nil => rfl
  | cons c candles ih =>
    unfold _validateCandles at h
    simp only [raiseIf_bind_eq_ok, not_or, not_not] at h
    obtain ⟨⟨hs, hi, hclosed⟩, -, hnext, hrest⟩ := h
    unfold _series
    rw [raiseIf_bind_eq_ok]
    refine ⟨?_, ih hrest⟩
    rw [hsymbol, hinterval, not_or, not_or, not_or, not_not, not_not, not_not]
    exact ⟨hs, hi, hclosed, hnext⟩

/-- Consecutive candles of a market are seen as long as a feature takes them. -/
theorem visible_of_validateCandles {symbol : Symbol} {interval : Interval} {t : ℤ}
    {candles : List Candle} (ht : 0 < t) (hlength : candles.length ≤ maxFeatureCandles)
    (h : _validateCandles symbol interval t none candles = .ok ()) :
    Features._visible candles t = .ok candles := by
  have hall : (candles.filter fun c => decide (c.closeTimeMs < t)) = candles := by
    rw [filter_eq_self]
    intro c hc
    exact decide_eq_true (closed_of_validateCandles h c hc)
  unfold _visible
  rw [raiseIf_neg (by omega), ok_bind, hall]
  cases candles with
  | nil => rfl
  | cons first rest =>
    have hfirst := h
    unfold _validateCandles at hfirst
    simp only [raiseIf_bind_eq_ok, not_or, not_not] at hfirst
    change (_series first none (first :: rest) >>= fun _ => .ok (first :: rest)) = _
    rw [series_of_validateCandles hfirst.1.1 hfirst.1.2.1 h]
    rfl

theorem visible_of_long {candles : List Candle} {t : ℤ} (h : maxFeatureCandles < candles.length) :
    Features._visible candles t = .error ⟨"Feature input identity is invalid"⟩ := by
  unfold _visible
  rw [raiseIf_pos (.inl h)]
  rfl

theorem validateCandles_primary (s : MarketSnapshot) :
    _validateCandles s.symbol primaryInterval s.decisionTimeMs none s.primary = .ok () := by
  have h := s.valid
  unfold MarketSnapshot.Fields.postInit at h
  rw [raiseIf_bind_eq_ok, unit_bind_eq_ok] at h
  have hprimary := h.2.1
  unfold _validateHistory at hprimary
  rw [raiseIf_bind_eq_ok, unit_bind_eq_ok] at hprimary
  exact hprimary.2.1

namespace Regime

theorem divide_eq_ok {a b : Decimal} (h : 0 < b.toRat) : ∃ d, _divide a b = .ok d := by
  have hb := ((toRat_pos_iff b).mp h).2
  unfold _divide div?
  rw [if_neg hb]
  exact ⟨_, rfl⟩

theorem mean_pos {ds : List Decimal} (hne : ds ≠ []) (h : ∀ d ∈ ds, 0 < d.toRat) {period : ℕ}
    (hperiod : 0 < period) : 0 < (Features._mean ds period).toRat := by
  apply quotient_pos Features.precision_pos (sum_pos Features.precision_pos hne h)
  rw [Features.toRat_natural]
  exact_mod_cast hperiod

/-- The regime of a context can always be told. -/
theorem exists_classify (context : StrategyContext) : ∃ r, classifyRegime context = .ok r := by
  have hmeasure : ∃ m, _measure context = .ok m := by
    unfold _measure
    rw [raiseIf_neg (not_not.mpr context.reconstructs), ok_bind]
    dsimp only
    split
    · exact ⟨_, rfl⟩
    · rename_i hlong
      have hpos : ∀ d ∈ (context.snapshot.regime.rtake warmup).map fun c => ofText c.close,
          0 < d.toRat := by
        intro d hd
        obtain ⟨c, -, rfl⟩ := mem_map.mp hd
        obtain ⟨-, -, -, hprices, -⟩ := c.facts
        exact (hprices c.close (by simp)).2
      have hlength : ((context.snapshot.regime.rtake warmup).map fun c => ofText c.close).length =
          warmup := by
        rw [length_map, rtake, length_drop]
        omega
      generalize (context.snapshot.regime.rtake warmup).map (fun c => ofText c.close) = closes
        at hpos hlength ⊢
      have hslow : 0 < (Features._mean (closes.rtake slowPeriod) slowPeriod).toRat := by
        refine mean_pos ?_ (fun d hd => hpos d (mem_of_mem_drop hd)) (by decide)
        intro hnil
        have hnone := congrArg length hnil
        change (closes.drop (closes.length - slowPeriod)).length = 0 at hnone
        rw [length_drop, hlength] at hnone
        exact absurd hnone (by decide)
      have hprevious : 0 < (Features._mean closes.dropLast slowPeriod).toRat := by
        refine mean_pos ?_ (fun d hd => hpos d (dropLast_subset _ hd)) (by decide)
        intro hnil
        have hnone := congrArg length hnil
        rw [length_dropLast, hlength] at hnone
        exact absurd hnone (by decide)
      obtain ⟨spread, hspread⟩ := divide_eq_ok (a := sub decimalPrecision
        (Features._mean (closes.rtake fastPeriod) fastPeriod)
        (Features._mean (closes.rtake slowPeriod) slowPeriod)) hslow
      obtain ⟨slope, hslope⟩ := divide_eq_ok (a := sub decimalPrecision
        (Features._mean (closes.rtake slowPeriod) slowPeriod)
        (Features._mean closes.dropLast slowPeriod)) hprevious
      rw [hspread, ok_bind, hslope, ok_bind]
      exact ⟨_, rfl⟩
  obtain ⟨m, hm⟩ := hmeasure
  unfold classifyRegime
  split
  · exact ⟨_, rfl⟩
  · rename_i e he
    rw [hm] at he
    cases he

end Regime

/-- A target that pays twice the risk of its setup. -/
structure LongSetup.PaysTwice (s : LongSetup) : Prop where
  invalidation_pos : 0 < (ofText s.invalidationPrice).toRat
  invalidation_lt : (ofText s.invalidationPrice).toRat < (ofText s.referencePrice).toRat
  reference_lt : (ofText s.referencePrice).toRat < (ofText s.targetPrice).toRat
  reward : (ofText s.targetPrice).toRat - (ofText s.referencePrice).toRat =
    2 * ((ofText s.referencePrice).toRat - (ofText s.invalidationPrice).toRat)

namespace Ablation

section Levels
variable {context : StrategyContext} {reason : DecisionReason} {price low volatility : Decimal}
  {invalidation : Decimal}

theorem paysTwice_of_bracket (hprice : Priced price) (hpos : 0 < invalidation.toRat)
    (hlt : invalidation.toRat < price.toRat) {s : LongSetup}
    (h : s.toFields = bracket price invalidation) : s.PaysTwice := by
  obtain ⟨-, hinvalidation, hreference, htarget⟩ := s.facts
  have hfits := (bracket_eq_ok hprice hpos hlt).mp (h ▸ s.valid)
  have hplain : ∀ d : Decimal, (ofText (PaperRunner._plain d)).toRat = d.toRat :=
    toRat_ofText_trimFraction
  have htargetValue := toRat_target hprice hpos hlt hfits.onGrid
  rw [lt_def, toRat_zero] at hinvalidation
  refine ⟨hinvalidation, lt_def.mp hreference, lt_def.mp htarget, ?_⟩
  rw [h]
  unfold bracket
  dsimp only
  rw [hplain, hplain, hplain, htargetValue]
  ring

def targetError : EvaluatorError :=
  .contract ⟨"target_price must be a plain positive decimal string"⟩

/-- A target with too many digits is refused by the setup. -/
theorem frozenSetup_error (hprice : Priced price) (hgrid : OnGrid 40 invalidation.toRat)
    (hpos : 0 < invalidation.toRat) (hlt : invalidation.toRat < price.toRat)
    (hover : 10 ^ 40 ≤ 3 * price.toRat - 2 * invalidation.toRat) :
    frozenSetup context reason price invalidation = .error targetError := by
  have hplain : ∀ d : Decimal, (ofText (PaperRunner._plain d)).toRat = d.toRat :=
    toRat_ofText_trimFraction
  have hpattern : ∀ {d : Decimal}, 0 < d.toRat → d.toRat < 10 ^ 40 → OnGrid 40 d.toRat →
      decimalPattern (PaperRunner._plain d) = true := fun h0 h40 =>
    (unsignedText_trimFraction (by norm_num) (negative_of_pos h0) h40).mpr
  have hreference := positive_of_pattern "reference_price"
    (hpattern hprice.pos hprice.lt hprice.fits.onGrid) (by rw [hplain]; exact hprice.pos)
  have hinvalidation := positive_of_pattern "invalidation_price"
    (hpattern hpos (hlt.trans hprice.lt) hgrid) (by rw [hplain]; exact hpos)
  have hlong : ¬ decimalPattern (bracket price invalidation).targetPrice := by
    intro h
    have hbound := (decimalPattern_bounds h).2.2.2
    unfold bracket at hbound
    dsimp only at hbound
    rw [hplain, toRat_target hprice hpos hlt hgrid] at hbound
    exact absurd hbound (not_lt.mpr hover)
  have htarget : _positive (bracket price invalidation).targetPrice "target_price" =
      .error ⟨"target_price must be a plain positive decimal string"⟩ := by
    unfold _positive
    rw [raiseIf_pos hlong]
    rfl
  have herror : (bracket price invalidation).postInit =
      .error ⟨"target_price must be a plain positive decimal string"⟩ := by
    unfold LongSetup.Fields.postInit
    change (_positive (PaperRunner._plain price) "reference_price" >>= fun reference =>
      _positive (PaperRunner._plain invalidation) "invalidation_price" >>= fun _ =>
      _positive (bracket price invalidation).targetPrice "target_price" >>= _) = _
    rw [hreference, ok_bind, hinvalidation, ok_bind, htarget]
    rfl
  have hbuild : LongSetup.build (bracket price invalidation) =
      .error ⟨"target_price must be a plain positive decimal string"⟩ :=
    construct_eq_error.mpr herror
  unfold frozenSetup
  rw [hbuild]
  rfl

/-- The level of a stop is written. -/
theorem text_of_within (hlow : Within (10 ^ 40) low) (hvolatility : Within (10 ^ 40) volatility) :
    _text decimalPrecision (level low volatility) =
      .ok (PaperRunner._plain (toGrid 40 (level low volatility))) := by
  have hp := Features.precision_pos
  have hfraction : Within 1 stopAtrFraction := by
    have hvalue : stopAtrFraction = ⟨false, 25, -2⟩ := by decide
    rw [hvalue]
    constructor <;> norm_num [toRat, int]
  have hone : (10 : ℚ) ^ 40 * 1 = 10 ^ 40 := mul_one _
  have hstep := hvolatility.mul hp hfraction (by rw [hone]; exact Features.representable_price)
  rw [hone] at hstep
  have hexact : (addExact low (copyNegate (mul decimalPrecision volatility stopAtrFraction))).toRat =
      low.toRat - (mul decimalPrecision volatility stopAtrFraction).toRat := by
    rw [toRat_addExact, toRat_copyNegate, sub_eq_add_neg]
  have hneg : Representable decimalPrecision (-(10 ^ 40)) := by
    apply Representable.of_neg
    rw [neg_neg]
    exact Features.representable_price
  have hhigh : (level low volatility).toRat ≤ 10 ^ 40 :=
    round_le hp Features.representable_price (by rw [hexact]; linarith [hlow.le, hstep.nonneg])
  have hbelow : -(10 ^ 40) ≤ (level low volatility).toRat :=
    le_round hp hneg (by rw [hexact]; linarith [hlow.nonneg, hstep.le])
  have hgrid : OnGrid 40 ((10 : ℚ) ^ 40) := ⟨10 ^ 80, by norm_num⟩
  have habs : |(toGrid 40 (level low volatility)).toRat| ≤ 10 ^ 40 :=
    abs_le.mpr ⟨le_toGrid hgrid.neg hbelow, toGrid_le hgrid hhigh⟩
  unfold _text
  rw [_plain_of_lt hp (habs.trans_lt (by norm_num : (10 : ℚ) ^ 40 < 10 ^ 41)) (by decide)]
  rfl

/-- An entry near the greatest price is refused with its target. -/
theorem frozenEnter_error (hlow : Within (10 ^ 40) low) (hvolatility : Within (10 ^ 40) volatility)
    (hpos : 0 < (rounded (level low volatility)).toRat)
    (hlt : (rounded (level low volatility)).toRat <
      (ofText context.snapshot.latestPrimary.close).toRat)
    (hover : 10 ^ 40 ≤ 3 * (ofText context.snapshot.latestPrimary.close).toRat -
      2 * (rounded (level low volatility)).toRat) :
    Evaluation._enter context reason (ofText context.snapshot.latestPrimary.close) low volatility =
      .error targetError := by
  have hprice : Priced (ofText context.snapshot.latestPrimary.close) := priced_close context
  have houtside : ¬ ((rounded (level low volatility)).toRat ≤ 0 ∨
      (ofText context.snapshot.latestPrimary.close).toRat ≤
        (rounded (level low volatility)).toRat) :=
    not_or.mpr ⟨not_le.mpr hpos, not_le.mpr hlt⟩
  rw [frozenEnter_eq (text_of_within hlow hvolatility) hprice.exponent, if_neg houtside]
  exact frozenSetup_error hprice (onGrid_rounded _) hpos hlt hover

end Levels

end Ablation

/-- An entry whose target would need more than forty digits before the point. -/
def Overflows (context : StrategyContext) : Prop :=
  ∃ invalidation : ℚ, 0 < invalidation ∧
    invalidation < (ofText context.snapshot.latestPrimary.close).toRat ∧
    10 ^ 40 ≤ 3 * (ofText context.snapshot.latestPrimary.close).toRat - 2 * invalidation

/-- A decision whose setup pays twice its risk, or a refused target. -/
inductive FrozenEnd (context : StrategyContext) : Except EvaluatorError StrategyDecision → Prop
  | decided {d : StrategyDecision} (lawful : ∀ s, d.setup = some s → s.PaysTwice) :
      FrozenEnd context (.ok d)
  | refused (overflows : Overflows context) : FrozenEnd context (.error Ablation.targetError)

namespace FrozenEnd
variable {context : StrategyContext} {reason : DecisionReason} {low volatility : Decimal}

theorem noTrade (h : reason ∈ noTradeReasons) : FrozenEnd context (_noTrade context reason) := by
  obtain ⟨d, hd, haction⟩ := Ablation.frozen_noTrade context h
  rw [hd]
  refine .decided fun s hs => ?_
  have hconsistent := d.consistent
  rw [StrategyDecision.Fields.consistent, haction] at hconsistent
  rw [hconsistent.1] at hs
  cases hs

theorem exit : FrozenEnd context (_exit context) := by
  have hvalid : (⟨context, .exitLong, .strategyExit, none⟩ : StrategyDecision.Fields).postInit =
      .ok () := by
    simp [StrategyDecision.Fields.postInit, StrategyDecision.Fields.consistent]
  have hexit : _exit context = .ok ⟨_, hvalid⟩ := by
    unfold _exit _decision StrategyDecision.build
    rw [construct_of_ok hvalid]
    rfl
  rw [hexit]
  exact .decided fun _ hs => by cases hs

theorem enter (hreason : reason ∈ entryReasons) (hlow : Within (10 ^ 40) low)
    (hvolatility : Within (10 ^ 40) volatility) : FrozenEnd context
      (_enter context reason (ofText context.snapshot.latestPrimary.close) low volatility) := by
  have hprice : Ablation.Priced (ofText context.snapshot.latestPrimary.close) :=
    Ablation.priced_close context
  have henter := @Ablation.frozenEnter_eq context reason _ _ _
    (Ablation.text_of_within hlow hvolatility) hprice.exponent
  by_cases houtside : (Ablation.rounded (Ablation.level low volatility)).toRat ≤ 0 ∨
      (ofText context.snapshot.latestPrimary.close).toRat ≤
        (Ablation.rounded (Ablation.level low volatility)).toRat
  · rw [henter, if_pos houtside]
    exact noTrade (by decide)
  rw [if_neg houtside] at henter
  rw [not_or, not_le, not_le] at houtside
  obtain ⟨hpos, hlt⟩ := houtside
  rcases lt_or_ge (3 * (ofText context.snapshot.latestPrimary.close).toRat -
    2 * (Ablation.rounded (Ablation.level low volatility)).toRat) (10 ^ 40) with hfits | hover
  · have hlevel : 0 < (Ablation.level low volatility).toRat := by
      by_contra hle
      exact absurd hpos (not_lt.mpr (Ablation.toRat_rounded_nonpos (not_lt.mp hle)))
    have hbelow : (Ablation.level low volatility).toRat <
        (ofText context.snapshot.latestPrimary.close).toRat := by
      by_contra hle
      exact absurd hlt (not_lt.mpr (hprice.le_rounded (not_lt.mp hle)))
    obtain ⟨d, s, hd, hs, hfields⟩ :=
      (Ablation.frozen_entered hprice hlevel hbelow hpos hlt hreason).1 hfits
    rw [hd]
    refine .decided fun s' hs' => ?_
    rw [hfields] at hs'
    cases hs'
    exact Ablation.paysTwice_of_bracket hprice hpos hlt hs
  · rw [Ablation.frozenEnter_error hlow hvolatility hpos hlt hover]
    exact .refused ⟨_, hpos, hlt, hover⟩

end FrozenEnd

open Ablation (StrategyId)

/-- The candles that the features of an evaluator are asked about. -/
def Ablation.StrategyId.history : StrategyId → StrategyContext → List Candle
  | .trendPullback, context => context.snapshot.primary
  | .rangeBreakout, context => context.snapshot.primary.dropLast

def Ablation.StrategyId.label : StrategyId → String
  | .trendPullback => Trend.label
  | .rangeBreakout => Breakout.label

section Evaluations
variable {s : StrategyId} {context : StrategyContext} {inPosition : Bool}
  {activeSetup : Option LongSetup}

theorem validated_of_position {identity : StrategyIdentity} {label : String}
    (hidentity : context.identity = identity) (hposition : inPosition = true ↔ activeSetup ≠ none) :
    _validated identity label context inPosition activeSetup = .ok activeSetup := by
  have hstate : ¬ (context.identity ≠ identity ∨ (inPosition = true ∧ activeSetup = none) ∨
      (inPosition = false ∧ activeSetup ≠ none)) := by
    rintro (h | ⟨hopen, hnone⟩ | ⟨hflat, hsome⟩)
    · exact h hidentity
    · exact hposition.mp hopen hnone
    · rw [hflat] at hposition
      exact Bool.false_ne_true (hposition.mpr hsome)
  have hparts : ¬ (¬ context.Reconstructs ∨
      ∃ setup ∈ activeSetup, setup.toFields.postInit ≠ .ok ()) := by
    rintro (h | ⟨setup, -, h⟩)
    · exact h context.reconstructs
    · exact h setup.valid
  unfold _validated
  rw [raiseIf_neg hstate, ok_bind]
  unfold raiseIf
  split
  · rename_i hbad
    exact absurd hbad hparts
  · rfl

theorem visible_history (hlength : (s.history context).length ≤ maxFeatureCandles) :
    Features._visible (s.history context) context.decisionTimeMs = .ok (s.history context) := by
  have hprimary := validateCandles_primary context.snapshot
  cases s with
  | trendPullback =>
    exact visible_of_validateCandles context.snapshot.facts.1.1 hlength hprimary
  | rangeBreakout =>
    apply visible_of_validateCandles context.snapshot.facts.1.1 hlength
    rw [← dropLast_append_getLast context.snapshot.facts.2.1] at hprimary
    exact validateCandles_prefix hprimary

section Visible
variable (message : String) {candles : List Candle} {t : ℤ}
  (hvisible : Features._visible candles t = .ok candles)
include hvisible

theorem exists_sma : ∃ r, _featureOf message (Features.sma candles Trend.primarySmaPeriod t) =
    .ok r := by
  obtain ⟨r, hr⟩ : ∃ r, sma candles Trend.primarySmaPeriod t = .ok r :=
    Ablation.exists_feature hvisible (by decide) (by decide) (by decide)
  exact ⟨r, (Ablation.featureOf_of hr).1⟩

theorem exists_rollingHigh : ∃ r,
    _featureOf message (Features.rollingHigh candles Breakout.breakoutLookback t) = .ok r := by
  obtain ⟨r, hr⟩ : ∃ r, rollingHigh candles Breakout.breakoutLookback t = .ok r :=
    Ablation.exists_feature hvisible (by decide) (by decide) (by decide)
  exact ⟨r, (Ablation.featureOf_of hr).1⟩

theorem exists_atr : ∃ r, _featureOf message (Features.atr candles atrPeriod t) = .ok r ∧
    ∀ hr : r.available, Within (10 ^ 40) (r.number hr) := by
  obtain ⟨r, hr⟩ : ∃ r, atr candles atrPeriod t = .ok r :=
    Ablation.exists_feature hvisible (by decide) (by decide) (by decide)
  refine ⟨r, (Ablation.featureOf_of hr).1, fun hready => ?_⟩
  obtain ⟨visible, -, hnumber⟩ := Features.number_eq_measure hr hready
  rw [hnumber]
  exact Features.within_averageTrueRange (by decide) (by decide) visible

theorem exists_rollingLow : ∃ r,
    _featureOf message (Features.rollingLow candles Trend.pullbackLookback t) = .ok r ∧
      ∀ hr : r.available, Within (10 ^ 40) (r.number hr) := by
  obtain ⟨r, hr⟩ : ∃ r, rollingLow candles Trend.pullbackLookback t = .ok r :=
    Ablation.exists_feature hvisible (by decide) (by decide) (by decide)
  refine ⟨r, (Ablation.featureOf_of hr).1, fun hready => ?_⟩
  obtain ⟨visible, -, hnumber⟩ := Features.number_eq_measure hr hready
  rw [hnumber]
  refine Features.within_minimum (by norm_num) fun d hd => ?_
  obtain ⟨c, -, rfl⟩ := mem_map.mp hd
  exact Features.within_price (c := c) (by simp)

end Visible

section Branches
variable {regime : MarketRegime} {average boundary close : Decimal} {setup : LongSetup}

theorem trend_levels (hvisible : Features._visible context.snapshot.primary context.decisionTimeMs =
    .ok context.snapshot.primary) : FrozenEnd context
      (Trend._levels context (ofText context.snapshot.latestPrimary.close)) := by
  obtain ⟨volatility, hvolatility, hrange⟩ := exists_atr (Trend.label ++ " level evaluation failed") hvisible
  obtain ⟨recentLow, hrecentLow, hlow⟩ := exists_rollingLow (Trend.label ++ " level evaluation failed") hvisible
  unfold Trend._levels
  dsimp only
  rw [hvolatility, ok_bind, hrecentLow, ok_bind]
  split
  · rename_i hready
    exact .enter (by decide) (hlow hready.2) (hrange hready.1)
  · exact .noTrade (by decide)

theorem trend_search (hvisible : Features._visible context.snapshot.primary context.decisionTimeMs =
    .ok context.snapshot.primary) : FrozenEnd context
      (Trend._search context regime average (ofText context.snapshot.latestPrimary.close)) := by
  unfold Trend._search
  split_ifs
  · exact .noTrade (by decide)
  · exact .noTrade (by decide)
  · exact .noTrade (by decide)
  · exact trend_levels hvisible
  · exact .noTrade (by decide)

theorem trend_hold : FrozenEnd context (Trend._hold context setup regime average close) := by
  unfold Trend._hold
  split_ifs
  · exact .exit
  · exact .noTrade (by decide)

theorem breakout_search {volatility : Decimal} (hvolatility : Within (10 ^ 40) volatility) :
    FrozenEnd context (Breakout._search context regime boundary volatility
      (ofText context.snapshot.latestPrimary.close)) := by
  have hlow : Within (10 ^ 40) (ofText context.snapshot.latestPrimary.low) :=
    Features.within_price (c := context.snapshot.latestPrimary) (by simp)
  unfold Breakout._search
  dsimp only
  split_ifs
  · exact .noTrade (by decide)
  · exact .noTrade (by decide)
  · exact .noTrade (by decide)
  · exact .noTrade (by decide)
  · exact .enter (by decide) hlow hvolatility
  · exact .noTrade (by decide)

theorem breakout_hold : FrozenEnd context (Breakout._hold context setup regime boundary close) := by
  unfold Breakout._hold
  split_ifs
  · exact .exit
  · exact .noTrade (by decide)

end Branches

/-- How an evaluation of an accepted history ends. -/
theorem end_of_history (hidentity : context.identity = s.identity)
    (hposition : inPosition = true ↔ activeSetup ≠ none)
    (hlength : (s.history context).length ≤ maxFeatureCandles) :
    FrozenEnd context (s.evaluate context inPosition activeSetup) := by
  obtain ⟨regime, hregime⟩ := Regime.exists_classify context
  cases s with
  | trendPullback =>
    have hvisible : _visible context.snapshot.primary context.decisionTimeMs =
        .ok context.snapshot.primary := visible_history (s := .trendPullback) hlength
    obtain ⟨average, haverage⟩ := exists_sma
      (Trend.label ++ " feature evaluation failed") hvisible
    have hvalidated : _validated trendPullbackIdentity Trend.label context inPosition activeSetup =
        .ok activeSetup := validated_of_position hidentity hposition
    change FrozenEnd context (evaluateTrendPullback context inPosition activeSetup)
    unfold evaluateTrendPullback
    rw [hvalidated, ok_bind, Ablation.regime_of hregime, ok_bind, haverage, ok_bind]
    split
    · cases activeSetup with
      | some setup => exact trend_hold
      | none => exact trend_search hvisible
    · exact .noTrade (by decide)
  | rangeBreakout =>
    have hvisible : _visible context.snapshot.primary.dropLast context.decisionTimeMs =
        .ok context.snapshot.primary.dropLast := visible_history (s := .rangeBreakout) hlength
    obtain ⟨boundary, hboundary⟩ := exists_rollingHigh
      (Breakout.label ++ " feature evaluation failed") hvisible
    obtain ⟨volatility, hvolatility, hrange⟩ := exists_atr
      (Breakout.label ++ " feature evaluation failed") hvisible
    have hvalidated : _validated breakoutIdentity Breakout.label context inPosition activeSetup =
        .ok activeSetup := validated_of_position hidentity hposition
    change FrozenEnd context (evaluateBreakout context inPosition activeSetup)
    unfold evaluateBreakout
    rw [hvalidated, ok_bind, Ablation.regime_of hregime, ok_bind]
    dsimp only
    rw [hboundary, ok_bind, hvolatility, ok_bind]
    split
    · rename_i hready
      cases activeSetup with
      | some setup => exact breakout_hold
      | none => exact breakout_search (hrange hready.1.2)
    · exact .noTrade (by decide)

theorem feature_of_long {name message : String} {period required : ℕ}
    {measure : List Candle → Decimal} {candles : List Candle} {t : ℤ}
    (hlength : maxFeatureCandles < candles.length)
    (hperiod : 1 ≤ period ∧ period ≤ maxFeaturePeriod) :
    _featureOf message (Features._feature name period required measure candles t) =
      .error (.strategy message) := by
  unfold Features._feature _period
  rw [raiseIf_neg (not_not.mpr hperiod), ok_bind, visible_of_long hlength]
  rfl

theorem error_of_long (hidentity : context.identity = s.identity)
    (hposition : inPosition = true ↔ activeSetup ≠ none)
    (hlength : maxFeatureCandles < (s.history context).length) :
    s.evaluate context inPosition activeSetup =
      .error (.strategy (s.label ++ " feature evaluation failed")) := by
  obtain ⟨regime, hregime⟩ := Regime.exists_classify context
  cases s with
  | trendPullback =>
    have hvalidated : _validated trendPullbackIdentity Trend.label context inPosition activeSetup =
        .ok activeSetup := validated_of_position hidentity hposition
    have haverage : _featureOf (Trend.label ++ " feature evaluation failed")
        (sma context.snapshot.primary Trend.primarySmaPeriod context.decisionTimeMs) =
        .error (.strategy (Trend.label ++ " feature evaluation failed")) :=
      feature_of_long hlength (by decide)
    change evaluateTrendPullback context inPosition activeSetup = _
    unfold evaluateTrendPullback
    rw [hvalidated, ok_bind, Ablation.regime_of hregime, ok_bind, haverage]
    rfl
  | rangeBreakout =>
    have hvalidated : _validated breakoutIdentity Breakout.label context inPosition activeSetup =
        .ok activeSetup := validated_of_position hidentity hposition
    have hboundary : _featureOf (Breakout.label ++ " feature evaluation failed")
        (rollingHigh context.snapshot.primary.dropLast Breakout.breakoutLookback
          context.decisionTimeMs) =
        .error (.strategy (Breakout.label ++ " feature evaluation failed")) :=
      feature_of_long hlength (by decide)
    change evaluateBreakout context inPosition activeSetup = _
    unfold evaluateBreakout
    rw [hvalidated, ok_bind, Ablation.regime_of hregime, ok_bind]
    dsimp only
    rw [hboundary]
    rfl

end Evaluations

namespace Extreme

def decisionTimeMs : ℤ := 734400000

theorem valid_flatRegime : (Candle.flat .btcusdt .h4 0 "100").postInit = .ok () := by decide

def flatRegime : Candle := ⟨Candle.flat .btcusdt .h4 0 "100", valid_flatRegime⟩
def flatContext : Candle := ⟨Candle.flat .btcusdt .m15 (decisionTimeMs - 1800000) "100", by decide⟩
def flatPrimary : Candle :=
  ⟨Candle.flat .btcusdt .h1 (decisionTimeMs - 72000000) "9900000000000000000000000000000000000000",
    by decide +kernel⟩

/-- A candle that rises from the one before it. -/
def risen (c : Candle) (price : String) : Candle.Fields :=
  { (c.later 1).toFields with
    high := price
    close := price }

def lastRegime : Candle := ⟨risen (flatRegime.later 49) "200", by decide +kernel⟩
def lastContext : Candle := ⟨risen flatContext "101", by decide +kernel⟩
def lastPrimary : Candle :=
  ⟨risen (flatPrimary.later 18) "9990000000000000000000000000000000000000", by decide +kernel⟩

/-- The market rises on every interval, and the last candle closes near the greatest price. -/
def snapshot : MarketSnapshot where
  symbol := .btcusdt
  decisionTimeMs := decisionTimeMs
  primary := flatPrimary.series 19 ++ [lastPrimary]
  context := [flatContext, lastContext]
  regime := flatRegime.series 50 ++ [lastRegime]
  valid := by decide +kernel

def context : StrategyContext := .of trendPullbackIdentity snapshot

theorem regime_context : ∃ r, classifyRegime context = .ok r ∧ r.regime = .trendUp ∧
    r.reason = .upAligned := by
  have h : (classifyRegime context).toOption.map (fun r => (r.regime, r.reason)) =
      some (.trendUp, .upAligned) := by decide +kernel
  cases hr : classifyRegime context with
  | error e =>
    rw [hr] at h
    cases h
  | ok r =>
    rw [hr] at h
    have hpair := Option.some.inj h
    exact ⟨r, rfl, congrArg Prod.fst hpair, congrArg Prod.snd hpair⟩

theorem exists_number {x : Except FeatureError FeatureResult} {d : Decimal}
    (h : x.toOption.map (fun f => f.value) = some (some d)) :
    ∃ f, ∃ hf : f.available, x = .ok f ∧ f.number hf = d := by
  cases x with
  | error e => cases h
  | ok f =>
    have hvalue : f.value = some d := Option.some.inj h
    have hf : f.available := f.ready_iff.1.mpr (by rw [hvalue]; rfl)
    exact ⟨f, hf, rfl, by simp [FeatureResult.number, hvalue]⟩

def low : Decimal := ⟨false, 9900000000000000000000000000000000000000, 0⟩

theorem exists_average : ∃ f, ∃ hf : f.available, Features.sma context.snapshot.primary
    Trend.primarySmaPeriod context.decisionTimeMs = .ok f ∧
      f.number hf = ⟨false, 9904500000000000000000000000000000000000, 0⟩ :=
  exists_number (by decide +kernel)

theorem exists_low : ∃ f, ∃ hf : f.available, Features.rollingLow context.snapshot.primary
    Trend.pullbackLookback context.decisionTimeMs = .ok f ∧ f.number hf = low :=
  exists_number (by decide +kernel)

/-- Whatever the volatility, the stop stays between zero and the low. -/
theorem level_bounds {volatility : Decimal} (hvolatility : Within (10 ^ 40) volatility) :
    0 < (Ablation.rounded (Ablation.level low volatility)).toRat ∧
      (Ablation.rounded (Ablation.level low volatility)).toRat ≤ 99 * 10 ^ 38 := by
  have hp := Features.precision_pos
  have hlow : low.toRat = 99 * 10 ^ 38 := by norm_num [low, toRat, int]
  have hfraction : Within (1 / 4) stopAtrFraction := by
    have hvalue : stopAtrFraction = ⟨false, 25, -2⟩ := by decide
    rw [hvalue]
    constructor <;> norm_num [toRat, int]
  have hstep := hvolatility.mul hp hfraction
    ⟨25 * 10 ^ 38, 0, by norm_num [decimalPrecision], by norm_num⟩
  have hexact : (addExact low (copyNegate (mul decimalPrecision volatility stopAtrFraction))).toRat =
      99 * 10 ^ 38 - (mul decimalPrecision volatility stopAtrFraction).toRat := by
    rw [toRat_addExact, toRat_copyNegate, hlow, sub_eq_add_neg]
  have hhigh : (Ablation.level low volatility).toRat ≤ 99 * 10 ^ 38 :=
    round_le hp ⟨99 * 10 ^ 38, 0, by norm_num [decimalPrecision], by norm_num⟩
      (by rw [hexact]; linarith [hstep.nonneg])
  have hbelow : 1 ≤ (Ablation.level low volatility).toRat :=
    le_round hp ⟨1, 0, by norm_num [decimalPrecision], by norm_num⟩
      (by rw [hexact]; linarith [hstep.le])
  rw [Ablation.toRat_rounded]
  exact ⟨zero_lt_one.trans_le (le_toGrid (onGrid_one 40) hbelow),
    toGrid_le ⟨99 * 10 ^ 78, by norm_num⟩ hhigh⟩

end Extreme

end TradingLab
