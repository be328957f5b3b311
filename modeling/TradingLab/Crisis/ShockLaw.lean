import TradingLab.Crisis.SyntheticShock
import TradingLab.Backtest.CostOrder
import TradingLab.Backtest.FillRefusal
import TradingLab.Backtest.Valuation
import TradingLab.Decimal.Congr

/-!
# What a synthetic shock does

A shock is filled as the fill engine fills it. The exact proceeds of a worse shock
are never greater. A position that is kept is added to the cash with all digits,
though, and the proceeds of an exit with 28, so that between a scenario that exits
and one that does not the roundings of the two sums decide.
-/

namespace TradingLab

open Decimal Method PaperFillEngine

namespace Crisis

section Engine
variable {setup : LongSetup} {position : _OpenPosition}

/-- The engine holds the position of an episode. -/
structure Holding (setup : LongSetup) (position : _OpenPosition) : Prop where
  quantity : position.quantity = runnerQuantity
  stop : position.stopPrice = setup.invalidationPrice
  target : position.targetPrice = setup.targetPrice

theorem Holding.level (h : Holding setup position) (bar : Candle) :
    PaperFillEngine._level position bar = _exitLevel setup bar := by
  unfold _level _exitLevel
  rw [h.stop, h.target]

theorem volume_runner {r : FillReference} (h : r.quantity = runnerQuantity) :
    PaperFillEngine._volume [r] = ofText runnerQuantity := by
  unfold _volume FillReference.quantityDecimal
  rw [List.map_singleton, h]
  decide

variable {s : PaperFillEngine} {c : PaperFillEngine.Call}

/-- An exit is refused for the volume of the candle by both. -/
theorem reference_eq {event : DecisionEvent} {bar : Candle} {price : String}
    {reason : FillReason} (hsymbol : bar.symbol = s.symbol)
    (hopen : bar.openTimeMs = event.eligibleFillOpenTimeMs) (hbuilt : ∃ r,
      s._reference .exitLong event runnerQuantity price reason = .ok r) :
    ∃ r, r.quantity = runnerQuantity ∧
      s._reference .exitLong event runnerQuantity price reason = .ok r ∧
      (_reference bar runnerQuantity price reason).toOption =
        if ofText bar.baseVolume < PaperFillEngine._volume [r] then none else some r := by
  obtain ⟨r, hr⟩ := hbuilt
  have htime : event.eligibleFillOpenTimeMs = event.decisionTimeMs := by
    have hvalid := event.valid
    unfold DecisionEvent.Fields.postInit at hvalid
    rw [raiseIf_eq_ok] at hvalid
    omega
  have hquantity := (_reference_eq_ok hr).2.2
  have hsame : FillReference.build ⟨.exitLong, bar.symbol, bar.openTimeMs, bar.openTimeMs,
      runnerQuantity, price, reason⟩ = .ok r := by
    rw [← hr, PaperFillEngine._reference, hsymbol, hopen, ← htime]
  refine ⟨r, hquantity, hr, ?_⟩
  rw [volume_runner hquantity]
  unfold _reference
  split_ifs with hvolume
  · rw [raiseIf_pos hvolume]
    rfl
  · rw [raiseIf_neg hvolume, ok_bind, hsame]
    rfl

theorem process_fst {t : PaperFillEngine} (hfits : c.Fits s) {fills : List FillReference}
    (hfills : (PaperFillEngine._fills c.event c.intent c.fillCandle).call s = (.ok fills, t)) :
    ((PaperFillEngine.process c).call s).1.toOption =
      if ofText c.fillCandle.baseVolume < PaperFillEngine._volume fills then none
      else some fills := by
  unfold process _attempt
  rw [call_read_bind, call_bind, call_check, id, raiseIf_neg (not_not.mpr hfits)]
  dsimp only
  rw [call_read_bind, call_onError, call_bind, hfills]
  dsimp only
  rw [call_bind, call_check]
  split_ifs with hvolume
  · rw [raiseIf_pos hvolume]
    rfl
  · rw [raiseIf_neg hvolume]
    rfl

/-- A shock is filled as the fill engine fills it. -/
theorem exitReference_eq_process (h : Holding setup position)
    (hs : s._position = some position) (hfits : c.Fits s)
    (hhold : c.intent.action = .hold) :
    ((PaperFillEngine.process c).call s).1.toOption =
      (_exitReference .noTrade setup c.fillCandle runnerQuantity).toOption.map Option.toList := by
  have hparts := hfits
  obtain ⟨-, -, hsymbol, -, -, hopen⟩ := hparts
  have hfills : _fills c.event c.intent c.fillCandle =
      _protectiveExit c.event c.fillCandle >>= fun protective =>
        pure protective.toList := by
    unfold _fills
    rw [if_neg (by rw [hhold]; decide), dif_neg (by rw [hhold]; decide)]
  unfold _exitReference
  dsimp only
  rw [← h.level]
  cases hlevel : _level position c.fillCandle with
  | none =>
    have hcall : (_fills c.event c.intent c.fillCandle).call s = (.ok [], s) := by
      rw [hfills, _protectiveExit, call_bind, call_read_bind, id, hs]
      dsimp only
      rw [hlevel]
      rfl
    rw [process_fst hfits hcall, if_neg]
    · rfl
    · rw [lt_def, not_lt]
      exact (toRat_zero.le).trans (decimalPattern_bounds c.fillCandle.facts.2.2.2.2.1).2.2.1
  | some level =>
    obtain ⟨price, reason⟩ := level
    obtain ⟨hprice, hreason⟩ := level_eq_some hlevel
    have hbuilt : ∃ r, s._reference .exitLong c.event runnerQuantity price reason = .ok r := by
      rw [← h.quantity]
      exact reference_of_positive position.sized hprice (.inr ⟨rfl, hreason⟩)
    obtain ⟨r, -, hr, hreference⟩ := reference_eq hsymbol hopen hbuilt
    have hcall : (_fills c.event c.intent c.fillCandle).call s =
        (.ok [r], { s with _position := none }) := by
      rw [hfills, _protectiveExit, call_bind, call_read_bind, id, hs]
      dsimp only
      rw [hlevel]
      dsimp only
      rw [call_bind, call_check, h.quantity, hr]
      rfl
    rw [process_fst hfits hcall]
    change _ = (((_reference c.fillCandle runnerQuantity price reason).map some).toOption).map
      Option.toList
    have hmap : ((_reference c.fillCandle runnerQuantity price reason).map some).toOption =
        (_reference c.fillCandle runnerQuantity price reason).toOption.map some := by
      cases _reference c.fillCandle runnerQuantity price reason <;> rfl
    rw [hmap, hreference]
    split_ifs
    · rfl
    · rfl

end Engine

section Sale
variable {quantity mark mark' fee fee' slip slip' : Decimal}

theorem liquidation_congr (hmark : mark ≈ mark') (hfee : fee ≈ fee') (hslip : slip ≈ slip') :
    liquidation quantity mark fee slip ≈ liquidation quantity mark' fee' slip' := by
  have hp : 0 < decimalPrecision := by decide
  have hkeep : ∀ {a b : Decimal}, a ≈ b →
      sub decimalPrecision 1 (quotient decimalPrecision a basisPoints) ≈
        sub decimalPrecision 1 (quotient decimalPrecision b basisPoints) := fun hab =>
    sub_congr hp (equiv_refl 1) (quotient_congr_left hp hab basisPoints)
  unfold liquidation
  exact mul_congr hp (mul_congr hp (equiv_refl quantity) (mul_congr hp hmark (hkeep hslip)))
    (hkeep hfee)

theorem holds_kept {rate : Decimal} (h : OnGrid 40 rate.toRat) (h0 : 0 ≤ rate.toRat)
    (h1 : rate.toRat ≤ 1000) :
    Holds 44 1 (sub decimalPrecision 1 (quotient decimalPrecision rate basisPoints))
      (1 - rate.toRat / 10000) := by
  refine ⟨(toRat_factors h h0 h1).2, ?_⟩
  rw [sub_eq_add_neg]
  exact fits_one_add (fits_rate h h0 h1).neg

theorem toRat_liquidation (spec : BacktestSpec) (hq : Fits 40 40 quantity.toRat)
    (hm : Fits 40 40 mark.toRat) :
    (liquidation quantity mark spec.feeBpsDecimal spec.slippageBpsDecimal).toRat =
      quantity.toRat * (mark.toRat * (1 - spec.slippageBpsDecimal.toRat / 10000)) *
        (1 - spec.feeBpsDecimal.toRat / 10000) := by
  have hp : 0 < decimalPrecision := by decide
  obtain ⟨-, -, ⟨f0, f1, hf⟩, s0, s1, hs⟩ := spec.facts
  have hslipped := Holds.mul hp ⟨rfl, hm⟩ (holds_kept hs s0 s1) (by decide)
  have hgross := Holds.mul hp ⟨rfl, hq⟩ hslipped (by decide)
  exact (Holds.mul hp hgross (holds_kept hf f0 f1) (by decide)).value

theorem cashDelta_eq_liquidation {r : FillReference} (hexit : r.action = .exitLong)
    (spec : BacktestSpec) : (costFill r spec).cashDelta ≈
      liquidation r.quantityDecimal r.priceDecimal spec.feeBpsDecimal spec.slippageBpsDecimal := by
  obtain ⟨hq, hp⟩ := fits_reference r
  have hne : r.action ≠ .enterLong := by
    rw [hexit]
    decide
  rw [equiv_def, toRat_liquidation spec hq hp, (usesPolicy_costFill r spec).toRat.1]
  change (exactFill r spec.feeBpsDecimal.toRat spec.slippageBpsDecimal.toRat).cashDelta = _
  unfold exactFill slippedPrice
  dsimp only
  rw [if_neg hne, if_neg hne]
  ring

end Sale

section Terms
variable (source : Source) (action : StrategyAction) (scenario : Scenario)

def shockPrice : Decimal := shocked (ofText source.entryCandle.close) scenario.adverseGapBps

/-- The strategy leaves, or the price is outside of the bracket. -/
def Closes : Prop :=
  action = .exitLong ∨ shockPrice source scenario ≤ ofText source.setup.invalidationPrice ∨
    ofText source.setup.targetPrice ≤ shockPrice source scenario

instance : Decidable (Closes source action scenario) := by
  unfold Closes
  infer_instance

/-- The price the position is sold at, or valued at. -/
def salePrice : Decimal :=
  if action = .exitLong then shockPrice source scenario
  else (shockPrice source scenario).smaller (ofText source.setup.targetPrice)

/-- What the position brings. -/
def sale : Decimal :=
  liquidation (ofText runnerQuantity) (salePrice source action scenario)
    (ofText CandidateFreeze.feeBps) (slippageBps scenario.slippageMultiplier)

def total : Decimal := addExact source.cash (sale source action scenario)

def sumDigits : ℕ := if Closes source action scenario then defaultPrecision else decimalPrecision

/-- What rounding adds to the sum. -/
def gain : ℚ :=
  (round (sumDigits source action scenario) (total source action scenario)).toRat -
    (total source action scenario).toRat

end Terms

section Run
variable {strategy : Source → Except ShockError StrategyAction} {episode : Episode}
  {source : Source} {action : StrategyAction} {scenario : Scenario} {r : ShockResult}

theorem validateEpisode_eq_ok (h : _validateEpisode episode = .ok source) :
    source.quantity = ofText runnerQuantity := by
  unfold _validateEpisode at h
  rw [raiseIf_bind_eq_ok] at h
  obtain ⟨-, h⟩ := h
  obtain ⟨setup, -, h⟩ := bind_eq_ok.mp h
  obtain ⟨entryCandle, -, h⟩ := bind_eq_ok.mp h
  dsimp only at h
  rw [raiseIf_bind_eq_ok] at h
  obtain ⟨hconfirmed, h⟩ := h
  simp only [not_or, not_not] at hconfirmed
  have hquantity := hconfirmed.2.2.2.2.2.2.2.2.2.2
  rw [hquantity] at h
  obtain ⟨n, hn, h⟩ := bind_eq_ok.mp h
  have hnumber : _number runnerQuantity "source portfolio arithmetic is invalid" =
      .ok (.finite (ofText runnerQuantity)) := by
    unfold _number
    rw [show Numeral.ofString runnerQuantity = some (.finite (ofText runnerQuantity)) by decide]
  rw [hnumber] at hn
  cases hn
  obtain ⟨cash, -, h⟩ := bind_eq_ok.mp h
  obtain ⟨costBasis, -, h⟩ := bind_eq_ok.mp h
  obtain ⟨realized, -, h⟩ := bind_eq_ok.mp h
  obtain ⟨q, hq, h⟩ := bind_eq_ok.mp h
  cases hq
  obtain ⟨c, -, h⟩ := bind_eq_ok.mp h
  obtain ⟨b, -, h⟩ := bind_eq_ok.mp h
  obtain ⟨p, -, h⟩ := bind_eq_ok.mp h
  rw [raiseIf_bind_eq_ok] at h
  obtain ⟨-, h⟩ := h
  cases h
  rfl

/-- What a run that returned went through. -/
structure Ran (source : Source) (action : StrategyAction) (scenario : Scenario)
    (r : ShockResult) : Prop where
  gap : scenario.adverseGapBps ∈ [500, 1000, 2000]
  fee : r.spec.feeBpsDecimal = ofText CandidateFreeze.feeBps
  slippage : r.spec.slippageBpsDecimal ≈ slippageBps scenario.slippageMultiplier
  flat : r.shock.low = r.shock.open' ∧ r.shock.high = r.shock.open'
  price : ofText r.shock.open' ≈ shockPrice source scenario
  after : ∃ reference, _exitReference action source.setup r.shock runnerQuantity = .ok reference ∧
    _afterShock source r.shock r.spec reference = .ok r.toAfterShock

theorem runScenario_eq_ok (hsource : _validateEpisode episode = .ok source)
    (haction : strategy source = .ok action)
    (h : _runScenario strategy episode scenario = .ok r) : Ran source action scenario r := by
  unfold _runScenario at h
  rw [hsource, ok_bind] at h
  obtain ⟨decision, hdecision, h⟩ := bind_eq_ok.mp h
  obtain ⟨sourceSpec, -, h⟩ := bind_eq_ok.mp h
  obtain ⟨spec, hspec, h⟩ := bind_eq_ok.mp h
  obtain ⟨price, hprice, h⟩ := bind_eq_ok.mp h
  obtain ⟨shock, hshock, h⟩ := bind_eq_ok.mp h
  obtain ⟨reference, hreference, h⟩ := bind_eq_ok.mp h
  obtain ⟨after, hafter, h⟩ := bind_eq_ok.mp h
  cases h
  have hdecided : decision.action = action := by
    unfold _strategyBeforeShock at hdecision
    rw [haction, ok_bind, raiseIf_bind_eq_ok] at hdecision
    obtain ⟨-, hdecision⟩ := hdecision
    cases hdecision
    rfl
  obtain ⟨hgap, hprice⟩ := raiseIf_bind_eq_ok.mp hprice
  cases hprice
  rw [hdecided] at hreference
  obtain ⟨_, rfl⟩ := construct_eq_ok.mp (mapError_eq_ok.mp hspec)
  obtain ⟨_, rfl⟩ := construct_eq_ok.mp (mapError_eq_ok.mp hshock)
  exact {
    gap := by
      rw [not_or, not_not] at hgap
      exact hgap.2
    fee := rfl
    slippage := toRat_plain _
    flat := ⟨rfl, rfl⟩
    price := toRat_plain _
    after := ⟨reference, hreference, hafter⟩ }

variable {shock : Candle} {reason : FillReason} {reference : FillReference} {spec : BacktestSpec}
  {after : AfterShock}

theorem exitLevel_flat {setup : LongSetup}
    (hflat : shock.low = shock.open' ∧ shock.high = shock.open') :
    _exitLevel setup shock =
      if ofText shock.open' ≤ ofText setup.invalidationPrice then some (shock.open', .stop)
      else if ofText setup.targetPrice ≤ ofText shock.open' then
        some (setup.targetPrice, .target)
      else none := by
  unfold _exitLevel
  rw [hflat.1, hflat.2]
  dsimp only
  split_ifs with hstop htarget hboth
  · rfl
  · rfl
  · exact (hstop hboth.1).elim
  · rfl

theorem reference_eq_ok {quantity price : String}
    (h : _reference shock quantity price reason = .ok reference) :
    reference.action = .exitLong ∧ reference.quantity = quantity ∧
      reference.referencePrice = price := by
  unfold _reference at h
  obtain ⟨-, h⟩ := raiseIf_bind_eq_ok.mp h
  obtain ⟨-, rfl⟩ := construct_eq_ok.mp (mapError_eq_ok.mp h)
  exact ⟨rfl, rfl, rfl⟩

theorem map_some_eq_ok {x : Except ShockError FillReference} {reference : Option FillReference}
    (h : x.map some = .ok reference) : ∃ f, x = .ok f ∧ reference = some f := by
  cases x with
  | ok f =>
    cases h
    exact ⟨f, rfl, rfl⟩
  | error e => cases h

theorem afterShock_some (h : _afterShock source shock spec (some reference) = .ok after) :
    after.equityAfter = add defaultPrecision source.cash (costFill reference spec).cashDelta := by
  unfold _afterShock at h
  obtain ⟨fill, hfill, h⟩ := bind_eq_ok.mp h
  cases h
  have happlied := mapError_eq_ok.mp hfill
  have hsymbol : reference.symbol = spec.symbol := by
    unfold applyCosts at happlied
    exact not_not.mp (raiseIf_bind_eq_ok.mp happlied).1
  rw [applyCosts_eq_ok hsymbol] at happlied
  cases happlied
  rfl

theorem equity_of_exit {price : String} {reference : Option FillReference}
    (hreference : (_reference shock runnerQuantity price reason).map some = .ok reference)
    (hafter : _afterShock source shock spec reference = .ok after) :
    after.equityAfter ≈ add defaultPrecision source.cash
      (liquidation (ofText runnerQuantity) (ofText price) spec.feeBpsDecimal
        spec.slippageBpsDecimal) := by
  obtain ⟨f, hf, rfl⟩ := map_some_eq_ok hreference
  obtain ⟨hexit, hquantity, hprice⟩ := reference_eq_ok hf
  rw [afterShock_some hafter, ← hquantity, ← hprice]
  exact add_congr (by decide) (equiv_refl source.cash) (cashDelta_eq_liquidation hexit spec)

/-- The digits and the price of the sum that a run ends with. -/
theorem Ran.equity (h : Ran source action scenario r) (hsource : _validateEpisode episode = .ok source) :
    ∃ mark, mark ≈ salePrice source action scenario ∧ Fits 40 40 mark.toRat ∧ 0 < mark.toRat ∧
      r.equityAfter ≈ add (sumDigits source action scenario) source.cash
        (liquidation (ofText runnerQuantity) mark r.spec.feeBpsDecimal
          r.spec.slippageBpsDecimal) := by
  obtain ⟨reference, hreference, hafter⟩ := h.after
  have hprice := equiv_def.mp h.price
  obtain ⟨popen, zopen⟩ := r.shock.facts.2.2.2.1 _ List.mem_cons_self
  obtain ⟨⟨-, -, ptarget⟩, zstop, hstop, htarget⟩ := source.setup.facts
  rw [lt_def] at hstop htarget zstop
  rw [toRat_zero] at zstop
  have fits_of : ∀ {text : String}, decimalPattern text → 0 < (ofText text).toRat →
      Fits 40 40 (ofText text).toRat := by
    intro text hpattern hpos
    refine ⟨onGrid_decimalPattern hpattern, ?_⟩
    rw [abs_of_pos hpos]
    exact (decimalPattern_bounds hpattern).2.2.2
  cases action with
  | enterLong => cases hreference
  | exitLong =>
    refine ⟨ofText r.shock.open', ?_, fits_of popen zopen, zopen, ?_⟩
    · rw [salePrice, if_pos rfl]
      exact h.price
    · rw [sumDigits, if_pos (.inl rfl)]
      exact equity_of_exit hreference hafter
  | noTrade =>
    have hcloses : Closes source .noTrade scenario ↔
        ofText r.shock.open' ≤ ofText source.setup.invalidationPrice ∨
          ofText source.setup.targetPrice ≤ ofText r.shock.open' := by
      unfold Closes
      rw [le_def, le_def, le_def, le_def, hprice]
      simp
    have hsale : salePrice source .noTrade scenario =
        (shockPrice source scenario).smaller (ofText source.setup.targetPrice) := if_neg (by decide)
    rw [hsale, sumDigits]
    unfold _exitReference at hreference
    dsimp only at hreference
    rw [exitLevel_flat h.flat] at hreference
    split_ifs at hreference with hbelow habove
    · rw [if_pos (hcloses.mpr (.inl hbelow))]
      refine ⟨ofText r.shock.open', ?_, fits_of popen zopen, zopen,
        equity_of_exit hreference hafter⟩
      rw [smaller, if_neg]
      · exact h.price
      · rw [lt_def, not_lt, ← hprice]
        exact ((le_def.mp hbelow).trans (hstop.trans htarget).le)
    · rw [if_pos (hcloses.mpr (.inr habove))]
      refine ⟨ofText source.setup.targetPrice, ?_,
        fits_of ptarget (zstop.trans (hstop.trans htarget)), zstop.trans (hstop.trans htarget),
        equity_of_exit hreference hafter⟩
      rw [le_def, hprice] at habove
      rw [smaller, equiv_def]
      split_ifs with hlt
      · rfl
      · rw [lt_def, not_lt] at hlt
        exact le_antisymm habove hlt
    · cases hreference
      have hkept : r.equityAfter = _liquidationEquity source.cash source.quantity
          (ofText r.shock.open') r.spec := by
        rw [← Except.ok.inj hafter]
      rw [if_neg fun hc => (hcloses.mp hc).elim hbelow habove]
      refine ⟨ofText r.shock.open', ?_, fits_of popen zopen, zopen, ?_⟩
      · rw [smaller, if_neg]
        · exact h.price
        · rw [lt_def, not_lt, ← hprice]
          rw [le_def, not_le] at habove
          exact habove.le
      · rw [hkept, _liquidationEquity, validateEpisode_eq_ok hsource]

structure Priced (source : Source) (action : StrategyAction) (scenario : Scenario)
    (fee : ℚ) : Prop where
  rate : 0 ≤ fee ∧ fee ≤ 1000
  slippage : 0 ≤ (slippageBps scenario.slippageMultiplier).toRat ∧
    (slippageBps scenario.slippageMultiplier).toRat ≤ 1000
  price : 0 < (salePrice source action scenario).toRat
  sale : (sale source action scenario).toRat = (ofText runnerQuantity).toRat *
    ((salePrice source action scenario).toRat *
      (1 - (slippageBps scenario.slippageMultiplier).toRat / 10000)) * (1 - fee / 10000)

theorem Ran.priced (h : Ran source action scenario r)
    (hsource : _validateEpisode episode = .ok source) :
    Priced source action scenario (ofText CandidateFreeze.feeBps).toRat ∧
      r.equityAfter.toRat =
        source.cash.toRat + (sale source action scenario).toRat + gain source action scenario := by
  obtain ⟨mark, hmark, hfits, hpos, hequity⟩ := h.equity hsource
  obtain ⟨-, -, ⟨f0, f1, -⟩, s0, s1, -⟩ := r.spec.facts
  have hquantity : Fits 40 40 (ofText runnerQuantity).toRat := by
    refine ⟨onGrid_decimalPattern (by decide), ?_⟩
    obtain ⟨-, -, q0, q1⟩ := decimalPattern_bounds (by decide : decimalPattern runnerQuantity)
    rwa [abs_of_nonneg q0]
  have hsale : liquidation (ofText runnerQuantity) mark r.spec.feeBpsDecimal
      r.spec.slippageBpsDecimal ≈ sale source action scenario := by
    rw [h.fee]
    exact liquidation_congr hmark (equiv_refl _) h.slippage
  have hexact := toRat_liquidation r.spec hquantity hfits
  rw [equiv_def.mp hsale, equiv_def.mp hmark, equiv_def.mp h.slippage, h.fee] at hexact
  rw [equiv_def.mp hmark] at hpos
  rw [equiv_def.mp h.slippage] at s0 s1
  rw [h.fee] at f0 f1
  refine ⟨⟨⟨f0, f1⟩, ⟨s0, s1⟩, hpos, hexact⟩, ?_⟩
  have hdigits : 0 < sumDigits source action scenario := by
    unfold sumDigits
    split_ifs
    · decide
    · decide
  have htotal : (total source action scenario).toRat =
      source.cash.toRat + (sale source action scenario).toRat := toRat_addExact _ _
  have hsum := equiv_def.mp (equiv_trans hequity
    (add_congr hdigits (equiv_refl source.cash) hsale))
  change r.equityAfter.toRat = (round _ (total source action scenario)).toRat at hsum
  rw [hsum, gain, htotal]
  ring

end Run

/-- One parameter of the shock is at least as large, and the other the same. -/
def Milder (s t : Scenario) : Prop :=
  (s.adverseGapBps ≤ t.adverseGapBps ∧ s.slippageMultiplier = t.slippageMultiplier) ∨
    (s.adverseGapBps = t.adverseGapBps ∧ s.slippageMultiplier ≤ t.slippageMultiplier)

theorem Milder.gap {s t : Scenario} (h : Milder s t) : s.adverseGapBps ≤ t.adverseGapBps := by
  rcases h with ⟨h, -⟩ | ⟨h, -⟩
  · exact h
  · exact h.le

theorem Milder.multiplier {s t : Scenario} (h : Milder s t) :
    s.slippageMultiplier ≤ t.slippageMultiplier := by
  rcases h with ⟨-, h⟩ | ⟨-, h⟩
  · exact h.le
  · exact h

theorem slippageBps_mono {m n : ℤ} (h : m ≤ n) : slippageBps m ≤ slippageBps n := by
  apply toRat_round_mono (by decide)
  rw [toRat_mulExact, toRat_mulExact, toRat_ofInt, toRat_ofInt]
  apply mul_le_mul_of_nonneg_left _ (decimalPattern_bounds (by decide)).2.2.1
  simpa using h

theorem kept_anti {g h : ℤ} (hg : g ∈ [500, 1000, 2000]) (hh : h ∈ [500, 1000, 2000])
    (hle : g ≤ h) :
    sub decimalPrecision 1 (quotient decimalPrecision (ofInt h 0) basisPoints) ≤
      sub decimalPrecision 1 (quotient decimalPrecision (ofInt g 0) basisPoints) := by
  have hall : ∀ g ∈ [500, 1000, 2000], ∀ h ∈ [500, 1000, 2000], g ≤ h →
      sub decimalPrecision 1 (quotient decimalPrecision (ofInt h 0) basisPoints) ≤
        sub decimalPrecision 1 (quotient decimalPrecision (ofInt g 0) basisPoints) := by
    decide +kernel
  exact hall g hg h hh hle

section Pair
variable {source : Source} {action : StrategyAction} {s t : Scenario} {fee : ℚ}

theorem shockPrice_anti (hs : s.adverseGapBps ∈ [500, 1000, 2000])
    (ht : t.adverseGapBps ∈ [500, 1000, 2000]) (h : s.adverseGapBps ≤ t.adverseGapBps) :
    shockPrice source t ≤ shockPrice source s := by
  apply toRat_round_mono (by decide)
  rw [toRat_mulExact, toRat_mulExact]
  obtain ⟨-, zclose⟩ := source.entryCandle.facts.2.2.2.1 source.entryCandle.close (by simp)
  exact mul_le_mul_of_nonneg_left (kept_anti hs ht h) zclose.le

theorem salePrice_anti (h : shockPrice source t ≤ shockPrice source s) :
    salePrice source action t ≤ salePrice source action s := by
  unfold salePrice
  rw [le_def] at h
  split_ifs
  · exact h
  · simp only [smaller, lt_def, le_def]
    split_ifs <;> linarith

theorem sale_anti (hs : Priced source action s fee) (ht : Priced source action t fee)
    (hprice : salePrice source action t ≤ salePrice source action s)
    (hslip : slippageBps s.slippageMultiplier ≤ slippageBps t.slippageMultiplier) :
    (sale source action t).toRat ≤ (sale source action s).toRat := by
  rw [hs.sale, ht.sale]
  rw [le_def] at hprice hslip
  obtain ⟨f0, f1⟩ := hs.rate
  have s1 := hs.slippage.2
  have t1 := ht.slippage.2
  have hq : 0 ≤ (ofText runnerQuantity).toRat := (decimalPattern_bounds (by decide)).2.2.1
  apply mul_le_mul_of_nonneg_right _ (by linarith)
  apply mul_le_mul_of_nonneg_left _ hq
  exact mul_le_mul hprice (by linarith) (by linarith) hs.price.le

theorem sum_anti (hdigits : sumDigits source action s = sumDigits source action t)
    (hsale : (sale source action t).toRat ≤ (sale source action s).toRat) :
    (sale source action t).toRat + gain source action t ≤
      (sale source action s).toRat + gain source action s := by
  have hp : 0 < sumDigits source action t := by
    unfold sumDigits
    split_ifs
    · decide
    · decide
  have htotal : ∀ x, (total source action x).toRat =
      source.cash.toRat + (sale source action x).toRat := fun x => toRat_addExact _ _
  have hsum : (round (sumDigits source action t) (total source action t)).toRat ≤
      (round (sumDigits source action t) (total source action s)).toRat := by
    apply toRat_round_mono hp
    rw [htotal, htotal]
    linarith
  unfold gain
  rw [hdigits, htotal, htotal]
  linarith

/-- Both scenarios close the position or both keep it, or rounding gains no more than the worse
one loses. -/
def Ordered (source : Source) (action : StrategyAction) (s t : Scenario) : Prop :=
  (Closes source action s ↔ Closes source action t) ∨
    gain source action t - gain source action s ≤
      (sale source action s).toRat - (sale source action t).toRat

end Pair

/-- **Synthetic shocks.** -/
theorem synthetic_shock_law (strategy : Source → Except ShockError StrategyAction)
    (episode : Episode) :
    -- an exit of a shock is the exit of the fill engine
    (∀ (setup : LongSetup) (position : _OpenPosition) (s : PaperFillEngine)
      (c : PaperFillEngine.Call), Holding setup position → s._position = some position →
      c.Fits s → c.intent.action = .hold →
      ((PaperFillEngine.process c).call s).1.toOption =
        (_exitReference .noTrade setup c.fillCandle runnerQuantity).toOption.map
          Option.toList) ∧
    -- a worse shock leaves no more equity, exactly when rounding does not gain what it loses
    ∀ (source : Source) (action : StrategyAction) (s t : Scenario) (r r' : ShockResult),
      _validateEpisode episode = .ok source → strategy source = .ok action → Milder s t →
      _runScenario strategy episode s = .ok r → _runScenario strategy episode t = .ok r' →
      (r'.equityAfter ≤ r.equityAfter ↔ Ordered source action s t) := by
  refine ⟨fun setup position s c hholding hs hfits hhold =>
    exitReference_eq_process hholding hs hfits hhold, ?_⟩
  intro source action s t r r' hsource haction hmilder hr hr'
  have hran := runScenario_eq_ok hsource haction hr
  have hran' := runScenario_eq_ok hsource haction hr'
  obtain ⟨hpriced, hequity⟩ := hran.priced hsource
  obtain ⟨hpriced', hequity'⟩ := hran'.priced hsource
  have hprice := @salePrice_anti source action s t
    (shockPrice_anti hran.gap hran'.gap hmilder.gap)
  have hsale := sale_anti hpriced hpriced' hprice (slippageBps_mono hmilder.multiplier)
  rw [le_def, hequity, hequity', Ordered]
  by_cases hsame : Closes source action s ↔ Closes source action t
  · have hdigits : sumDigits source action s = sumDigits source action t := by
      unfold sumDigits
      exact if_congr hsame rfl rfl
    have hsum := sum_anti hdigits hsale
    refine iff_of_true ?_ (.inl hsame)
    linarith
  · constructor
    · intro h
      refine .inr ?_
      linarith
    · rintro (h | h)
      · exact (hsame h).elim
      · linarith

/-- An entry at a price of 24 decimals, from a cash of ten thousand. -/
def tinyEntry : Episode where
  symbol := .btcusdt
  decisionTimeMs := 7200000
  fillTimeMs := 7200000
  contextSha256 := "0000000000000000000000000000000000000000000000000000000000000000"
  activeSetup := ⟨"0.000000000000000000000002", "0.00000000000000000000000185",
    "0.000000000000000000000004"⟩
  portfolioAfterEntry := ⟨.btcusdt, runnerQuantity, "9999.999999999999999999999999997996999",
    "0.000000000000000000000000002003001", "0"⟩
  entryFill := ⟨"ENTER_LONG", "NEXT_PRIMARY_OPEN", 7200000, runnerQuantity⟩
  entryCandle := Candle.flat .btcusdt .h1 7200000 "0.000000000000000000000002"
  sourceStateConfirmedAtMs := 10799999

def gap500 : Scenario := ⟨"GAP_500_SLIP_1", 500, 1⟩
def gap1000 : Scenario := ⟨"GAP_1000_SLIP_1", 1000, 1⟩

/-- Below the stop the sum is rounded up to the cash before the entry; above it is not. -/
theorem tiny_exit_gains : Milder gap500 gap1000 ∧ ∃ r r',
    _runScenario (fun _ => .ok .noTrade) tinyEntry gap500 = .ok r ∧
    _runScenario (fun _ => .ok .noTrade) tinyEntry gap1000 = .ok r' ∧
    r.equityAfter < r'.equityAfter := by
  refine ⟨.inl ⟨by decide, rfl⟩, ?_⟩
  have hcompare : ((_runScenario (fun _ => .ok .noTrade) tinyEntry gap500).toOption.any fun r =>
      (_runScenario (fun _ => .ok .noTrade) tinyEntry gap1000).toOption.any fun r' =>
        decide (r.equityAfter < r'.equityAfter)) = true := by
    decide +kernel
  cases hr : _runScenario (fun _ => .ok .noTrade) tinyEntry gap500 with
  | error e =>
    rw [hr] at hcompare
    cases hcompare
  | ok r =>
    cases hr' : _runScenario (fun _ => .ok .noTrade) tinyEntry gap1000 with
    | error e =>
      rw [hr, hr'] at hcompare
      cases hcompare
    | ok r' =>
      rw [hr, hr'] at hcompare
      exact ⟨r, r', rfl, rfl, of_decide_eq_true hcompare⟩

end Crisis

end TradingLab
