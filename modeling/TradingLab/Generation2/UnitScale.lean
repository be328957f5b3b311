import TradingLab.Generation2.ControlLaw
import TradingLab.Generation2.Direction

/-!
# Scales of one

When all scales are one, scaling changes no amount: the target of an entry is the whole
quantity, and no rebalance finds a difference to trade.
-/

namespace TradingLab

open Decimal Search

namespace Generation2.VolScaling

namespace _Account

structure Same (a b : _Account) : Prop where
  cash : a.cash ≈ b.cash
  quantity : a.quantity ≈ b.quantity
  cashflow : Option.Rel (fun c d => c ≈ d) a.cycleCashflow b.cycleCashflow
  realized : Equals a.realized b.realized
  fee : a.totalFee ≈ b.totalFee
  slippage : a.totalSlippage ≈ b.totalSlippage
  turnover : a.totalTurnover ≈ b.totalTurnover

variable {a b : _Account} {x y : Decimal} (r : Rates) (reference : Decimal)

theorem same_refl (a : _Account) : a.Same a := by
  refine ⟨rfl, rfl, ?_, equals_refl _, rfl, rfl, rfl⟩
  cases a.cycleCashflow with
  | none => exact .none
  | some cashflow => exact .some rfl

theorem Same.charged (h : a.Same b) {c d : Costed} (hcost : c.Same d) :
    (a.charged c).Same (b.charged d) :=
  ⟨h.cash, h.quantity, h.cashflow, h.realized, add_congr defaultPrecision_pos h.fee hcost.fee,
    add_congr defaultPrecision_pos h.slippage hcost.slippage,
    add_congr defaultPrecision_pos h.turnover hcost.gross⟩

theorem alike_opened (h : a.Same b) (startCycle : Bool) :
    Alike (fun c d => c ≈ d) (a.opened startCycle) (b.opened startCycle) := by
  have hflow := h.cashflow
  unfold opened
  generalize a.cycleCashflow = c at hflow
  generalize b.cycleCashflow = d at hflow
  cases hflow with
  | none =>
    cases startCycle with
    | false => exact .error _ _
    | true =>
      by_cases hzero : a.quantity ≈ 0
      · dsimp only
        rw [if_pos hzero, if_pos (equiv_trans (equiv_symm h.quantity) hzero)]
        exact .ok rfl
      · dsimp only
        rw [if_neg hzero, if_neg fun hzero' => hzero (equiv_trans h.quantity hzero')]
        exact .error _ _
  | some hcd =>
    cases startCycle with
    | false => exact .ok hcd
    | true => exact .error _ _

theorem alike_buy (h : a.Same b) (hxy : x ≈ y) (startCycle : Bool) :
    Alike Same (a._buy r reference x startCycle) (b._buy r reference y startCycle) := by
  have hcost := r.bought_congr reference hxy
  have hcash := sub_congr decimalPrecision_pos h.cash hcost.debit
  unfold _buy
  apply (Alike.raiseIf _ _ (lt_congr hxy (equiv_refl 0))).bind
  intro _ _ _
  apply (alike_opened h startCycle).bind
  intro c d hcd
  by_cases hzero : x ≈ 0
  · rw [if_pos hzero, if_pos (equiv_trans (equiv_symm hxy) hzero)]
    exact .ok ⟨h.cash, h.quantity, .some hcd, h.realized, h.fee, h.slippage, h.turnover⟩
  · rw [if_neg hzero, if_neg fun hzero' => hzero (equiv_trans hxy hzero')]
    apply (Alike.raiseIf _ _ (lt_congr hcash (equiv_refl 0))).bind
    intro _ _ _
    have hcharged := h.charged hcost
    exact .ok ⟨hcash, add_congr defaultPrecision_pos h.quantity hxy,
      .some (sub_congr defaultPrecision_pos hcd hcost.debit), h.realized, hcharged.fee,
      hcharged.slippage, hcharged.turnover⟩

theorem Same.sold (h : a.Same b) (hxy : x ≈ y) {c d : Decimal} (hcd : c ≈ d) :
    (a.sold r reference x c).Same (b.sold r reference y d) := by
  have hcost := r.sold_congr reference hxy
  have hpos : 0 < x ↔ 0 < y := lt_congr rfl hxy
  unfold _Account.sold
  by_cases hx : 0 < x
  · rw [if_pos hx, if_pos (hpos.mp hx)]
    have hcharged := h.charged hcost
    exact ⟨add_congr defaultPrecision_pos h.cash hcost.proceeds,
      sub_congr defaultPrecision_pos h.quantity hxy,
      .some (add_congr defaultPrecision_pos hcd hcost.proceeds), h.realized, hcharged.fee,
      hcharged.slippage, hcharged.turnover⟩
  · rw [if_neg hx, if_neg fun hy => hx (hpos.mpr hy)]
    exact h

theorem alike_closed (h : a.Same b) : Alike Same a.closed b.closed := by
  unfold closed
  by_cases hzero : a.quantity ≈ 0
  · rw [if_pos hzero, if_pos (equiv_trans (equiv_symm h.quantity) hzero)]
    have hflow : Equals a.cycleCashflow.toList b.cycleCashflow.toList := by
      have hflow := h.cashflow
      generalize a.cycleCashflow = c at hflow
      generalize b.cycleCashflow = d at hflow
      cases hflow with
      | none => exact .nil
      | some hcd => exact .cons hcd .nil
    exact .ok ⟨h.cash, h.quantity, .none, List.rel_append h.realized hflow, h.fee, h.slippage,
      h.turnover⟩
  · rw [if_neg hzero, if_neg fun hzero' => hzero (equiv_trans h.quantity hzero')]
    exact .error _ _

theorem alike_sell (h : a.Same b) (hxy : x ≈ y) (closeCycle : Bool) :
    Alike Same (a._sell r reference x closeCycle) (b._sell r reference y closeCycle) := by
  unfold _sell
  apply (Alike.raiseIf _ _ (or_congr (lt_congr hxy (equiv_refl 0))
    (lt_congr h.quantity hxy))).bind
  intro _ _ _
  have hflow := h.cashflow
  generalize a.cycleCashflow = c at hflow
  generalize b.cycleCashflow = d at hflow
  cases hflow with
  | none => exact .error _ _
  | some hcd =>
    have hsold := h.sold r reference hxy hcd
    cases closeCycle with
    | false => exact .ok hsold
    | true => exact alike_closed hsold

theorem equity_same (h : a.Same b) : a._equity r reference ≈ b._equity r reference := by
  unfold _equity
  by_cases hzero : a.quantity ≈ 0
  · rw [if_pos hzero, if_pos (equiv_trans (equiv_symm h.quantity) hzero)]
    exact h.cash
  · rw [if_neg hzero, if_neg fun hzero' => hzero (equiv_trans h.quantity hzero')]
    exact add_congr decimalPrecision_pos h.cash (r.liquidation_congr reference h.quantity)

end _Account

theorem flat_of_opened {a : _Account} {cashflow : Decimal} (h : a.opened true = .ok cashflow) :
    a.quantity ≈ 0 := by
  unfold _Account.opened at h
  cases hflow : a.cycleCashflow with
  | some c =>
    rw [hflow] at h
    cases h
  | none =>
    rw [hflow] at h
    dsimp only at h
    split at h
    · assumption
    · cases h

theorem quantity_entry {a a' : _Account} {r : Rates} {reference x : Decimal} (hx : Held x)
    (h : a._buy r reference x true = .ok a') : a'.quantity ≈ x := by
  unfold _Account._buy at h
  obtain ⟨-, h⟩ := raiseIf_bind_eq_ok.mp h
  obtain ⟨cashflow, hopened, h⟩ := bind_eq_ok.mp h
  have hflat := flat_of_opened hopened
  split at h
  · cases h
    exact equiv_trans hflat (equiv_symm ‹_›)
  · obtain ⟨-, h⟩ := raiseIf_bind_eq_ok.mp h
    cases h
    apply hx.add
    rw [equiv_def.mp hflat, toRat_zero, zero_add]

/-- A run whose scales are all one, and the run without scaling. -/
structure SameAmounts (p : Policy) (s t : CellState) : Prop where
  position : s.logicalPosition = t.logicalPosition
  base : s.base.Same t.base
  stress : s.stress.Same t.stress
  scale : s.currentScale ≈ 1 ∧ t.currentScale ≈ 1
  drawdown : s.drawdown.Same t.drawdown
  exposure : s.exposureNotional ≈ t.exposureNotional
  full : s.logicalPosition = true → s.base.quantity ≈ mul defaultPrecision p.quantity 1

section Loop
variable {bars : List (Bar String)} {shortValues longValues : Indicator} {p : Policy}
  {schedule : Schedule} {stop : ℕ} {s s' t t' : CellState} {boundary : Option Decimal}

theorem SameAmounts.rescaled (h : SameAmounts p s t) (hunit : ∀ scale ∈ boundary, scale ≈ 1) :
    SameAmounts p (s.rescaled boundary) t := by
  unfold CellState.rescaled
  cases boundary with
  | none => exact h
  | some scale =>
    exact ⟨h.position, h.base, h.stress, ⟨hunit scale rfl, h.scale.2⟩, h.drawdown, h.exposure,
      h.full⟩

theorem SameAmounts.counted (h : SameAmounts p s t) (v : Values) :
    SameAmounts p (s.counted v) (t.counted v) :=
  ⟨h.position, h.base, h.stress, h.scale, h.drawdown, h.exposure, h.full⟩

theorem held_mul (x y : Decimal) : Held (mul defaultPrecision x y) :=
  toRat_round defaultPrecision_pos (representable_round defaultPrecision_pos _)

variable {scale reference : Decimal} {v : Values} {i : ℕ}

theorem SameAmounts.rebalanced (h : SameAmounts p s t) (hposition : s.logicalPosition = true)
    (hscale : scale ≈ 1) (reference : Decimal) :
    s.rebalanced p reference scale = .ok s := by
  have htarget : mul defaultPrecision p.quantity scale ≈ mul defaultPrecision p.quantity 1 :=
    mul_congr defaultPrecision_pos rfl hscale
  have hdelta : sub defaultPrecision (mul defaultPrecision p.quantity scale) s.base.quantity ≈ 0 := by
    apply Held.sub (show Held 0 by decide)
    rw [equiv_def.mp htarget, equiv_def.mp (h.full hposition), sub_self, toRat_zero]
  unfold CellState.rebalanced
  dsimp only
  rw [if_neg fun hlt => lt_irrefl (toRat 0) ((lt_congr rfl hdelta).mp hlt),
    if_neg fun hlt => lt_irrefl (toRat 0) ((lt_congr hdelta rfl).mp hlt)]
  rfl

theorem same_marked (h : SameAmounts p s t) (bar : Bar String) :
    Alike (SameAmounts p) (s.marked p bar) (t.marked p bar) := by
  have hequity := _Account.equity_same p.base (ofText bar.closing) h.base
  unfold CellState.marked
  dsimp only
  apply (Drawdown.alike_mark h.drawdown hequity).bind
  intro d e hde
  have hfull := h.full
  rw [h.position] at hfull ⊢
  apply Alike.ok
  split
  · have hheld := mul_congr defaultPrecision_pos h.base.quantity (equiv_refl (ofText bar.closing))
    exact ⟨rfl, h.base, h.stress, h.scale, hde, add_congr defaultPrecision_pos h.exposure hheld,
      hfull⟩
  · exact ⟨rfl, h.base, h.stress, h.scale, hde, h.exposure, hfull⟩

theorem same_entered (h : SameAmounts p s t) (hscale : scale ≈ 1)
    (hs : s.entered p reference scale = .ok s') (ht : t.entered p reference t.currentScale = .ok t') :
    SameAmounts p s' t' := by
  have htarget : mul defaultPrecision p.quantity scale ≈
      mul defaultPrecision p.quantity t.currentScale :=
    mul_congr defaultPrecision_pos rfl (equiv_trans hscale (equiv_symm h.scale.2))
  unfold CellState.entered at hs ht
  obtain ⟨base, hbase, hs⟩ := bind_eq_ok.mp hs
  obtain ⟨stress, hstress, hs⟩ := bind_eq_ok.mp hs
  obtain ⟨base', hbase', ht⟩ := bind_eq_ok.mp ht
  obtain ⟨stress', hstress', ht⟩ := bind_eq_ok.mp ht
  cases hs
  cases ht
  have hfull : base.quantity ≈ mul defaultPrecision p.quantity 1 :=
    equiv_trans (quantity_entry (held_mul _ _) hbase) (mul_congr defaultPrecision_pos rfl hscale)
  exact ⟨rfl, (_Account.alike_buy p.base reference h.base htarget true).rel hbase hbase',
    (_Account.alike_buy p.stress reference h.stress htarget true).rel hstress hstress', h.scale,
    h.drawdown, h.exposure, fun _ => hfull⟩

theorem same_exited (h : SameAmounts p s t) (reference : Decimal) :
    Alike (SameAmounts p) (s.exited p reference) (t.exited p reference) := by
  unfold CellState.exited
  apply (_Account.alike_sell p.base reference h.base h.base.quantity true).bind
  intro base base' hbase
  apply (_Account.alike_sell p.stress reference h.stress h.stress.quantity true).bind
  intro stress stress' hstress
  exact .ok ⟨rfl, hbase, hstress, h.scale, h.drawdown, h.exposure, nofun⟩

theorem same_act (h : SameAmounts p s t) (hunit : ∀ scale ∈ boundary, scale ≈ 1)
    (hsignal : v.enter s.logicalPosition = true ∨ v.exits s.logicalPosition = true)
    (hs : act p s v boundary reference = .ok s')
    (ht : act p t v none reference = .ok t') : SameAmounts p s' t' := by
  have hscale : boundary.getD s.currentScale ≈ 1 := by
    cases boundary with
    | none => exact h.scale.1
    | some scale => exact hunit scale rfl
  unfold act at hs ht
  rw [← h.position] at ht
  simp only [CellState.rescaled, bind_pure, Option.getD_none] at ht
  split at hs
  · obtain ⟨u, hu, hs⟩ := bind_eq_ok.mp hs
    cases hs
    rw [if_pos ‹_›] at ht
    exact ((same_exited h reference).rel hu ht).rescaled hunit
  · have henter : v.enter s.logicalPosition = true := hsignal.resolve_right ‹_›
    rw [if_pos henter] at hs
    rw [if_neg ‹_›, if_pos henter] at ht
    obtain ⟨u, hu, hs⟩ := bind_eq_ok.mp hs
    cases hs
    exact (same_entered h hscale hu ht).rescaled hunit

theorem act_of_no_signal (h : SameAmounts p s t) (hunit : ∀ scale ∈ boundary, scale ≈ 1)
    (hsignal : ¬ (v.enter s.logicalPosition = true ∨ v.exits s.logicalPosition = true))
    (hposition : s.logicalPosition = true) (reference : Decimal) :
    act p s v boundary reference = .ok (s.rescaled boundary) := by
  unfold act
  rw [if_neg fun hexits => hsignal (.inr hexits), if_neg fun henter => hsignal (.inl henter)]
  cases boundary with
  | none => rfl
  | some scale =>
    dsimp only
    rw [h.rebalanced hposition (hunit scale rfl)]
    rfl

theorem same_settle (h : SameAmounts p s t) (hunit : ∀ scale ∈ boundary, scale ≈ 1)
    (hs : settle bars p stop s i v boundary = .ok s')
    (ht : settle bars p stop t i v none = .ok t') : SameAmounts p s' t' := by
  have hmissed : SameAmounts p { s with missingFills := s.missingFills + 1 } t :=
    ⟨h.position, h.base, h.stress, h.scale, h.drawdown, h.exposure, h.full⟩
  unfold settle at hs ht
  rw [Option.isSome_none, Bool.and_false, Bool.or_false, ← h.position] at ht
  by_cases hsignal : v.enter s.logicalPosition = true ∨ v.exits s.logicalPosition = true
  · have hneeds : (v.enter s.logicalPosition || v.exits s.logicalPosition) = true := by
      simpa using hsignal
    rw [hneeds, Bool.true_or, if_pos rfl] at hs
    rw [hneeds, if_pos rfl] at ht
    split at hs
    · rw [if_pos ‹_›] at ht
      cases hs
      cases ht
      exact ⟨rfl, h.base, h.stress, h.scale, h.drawdown, h.exposure, h.full⟩
    · rw [if_neg ‹_›] at ht
      cases hnext : nextBar bars i with
      | none =>
        rw [hnext] at hs
        cases hs
      | some next =>
        rw [hnext] at hs ht
        exact same_act h hunit hsignal hs ht
  · have hneeds : (v.enter s.logicalPosition || v.exits s.logicalPosition) = false := by
      simpa using hsignal
    rw [hneeds, Bool.false_or] at hs
    rw [hneeds, if_neg Bool.false_ne_true] at ht
    cases ht
    split at hs
    · have hposition : s.logicalPosition = true := by
        simp_all
      split at hs
      · cases hs
        exact hmissed
      · cases hnext : nextBar bars i with
        | none =>
          rw [hnext] at hs
          cases hs
        | some next =>
          rw [hnext] at hs
          dsimp only at hs
          rw [act_of_no_signal h hunit hsignal hposition] at hs
          cases hs
          exact h.rescaled hunit
    · cases hs
      exact h.rescaled hunit

theorem unit_boundary (hunit : ∀ month, ∀ scale ∈ schedule month, scale ≈ 1) {time : ℤ}
    (h : boundaryScale (some schedule) time = .ok boundary) : ∀ scale ∈ boundary, scale ≈ 1 := by
  unfold boundaryScale at h
  dsimp only at h
  split at h
  · cases hscale : schedule time with
    | none =>
      rw [hscale] at h
      cases h
    | some scale =>
      rw [hscale] at h
      cases h
      intro x hx
      cases hx
      exact hunit time scale hscale
  · cases h
    nofun

theorem same_step (hunit : ∀ month, ∀ scale ∈ schedule month, scale ≈ 1) (h : SameAmounts p s t)
    (hs : step bars shortValues longValues p (some schedule) stop s i = .ok s')
    (ht : step bars shortValues longValues p none stop t i = .ok t') : SameAmounts p s' t' := by
  cases stepped_of_ok hs with
  | skipped hbar hmark hskip =>
    cases stepped_of_ok ht with
    | skipped hbar' hmark' _ =>
      cases hbar.symm.trans hbar'
      exact (same_marked h _).rel hmark hmark'
    | settled _ _ hi hv _ _ => simp [hi, hv] at hskip
  | settled hbar hmark hi hv hboundary hsettle =>
    cases stepped_of_ok ht with
    | skipped _ _ hskip => simp [hi, hv] at hskip
    | settled hbar' hmark' _ hv' hboundary' hsettle' =>
      cases hbar.symm.trans hbar'
      cases hv.symm.trans hv'
      cases hboundary'
      have hmarked := (same_marked h _).rel hmark hmark'
      exact same_settle (hmarked.counted _) (unit_boundary hunit hboundary) hsettle hsettle'

theorem same_loop (hunit : ∀ month, ∀ scale ∈ schedule month, scale ≈ 1)
    (hscale : scale ≈ 1) {is : List ℕ}
    (hs : loop bars shortValues longValues p (some schedule) stop (.init p scale) is = .ok s)
    (ht : loop bars shortValues longValues p none stop (.init p 1) is = .ok t) :
    SameAmounts p s t := by
  have hinit : SameAmounts p (.init p scale) (.init p 1) :=
    ⟨rfl, _Account.same_refl _, _Account.same_refl _, ⟨hscale, rfl⟩, ⟨rfl, rfl⟩, rfl, nofun⟩
  apply foldlM_of_ok _ hinit hs ht
  exact fun _ _ _ _ _ h => same_step hunit h

end Loop

open Survivor (_sum_congr meanOf_congr _profitFactor_congr gains_congr losses_congr)

structure EqualAmounts (c d : CellResult) : Prop where
  baseNet : c.baseNet ≈ d.baseNet
  stressNet : c.stressNet ≈ d.stressNet
  realized : c.realized ≈ d.realized
  stressRealized : c.stressRealized ≈ d.stressRealized
  maximumDrawdown : c.maximumDrawdown ≈ d.maximumDrawdown
  expectancy : c.expectancy ≈ d.expectancy
  stressExpectancy : c.stressExpectancy ≈ d.stressExpectancy
  profitFactor : c.profitFactor = d.profitFactor
  profitFactorInfinite : c.profitFactorInfinite = d.profitFactorInfinite
  exposure : c.exposureNotionalSum ≈ d.exposureNotionalSum
  baseTurnover : c.baseTurnoverQuote ≈ d.baseTurnoverQuote
  stressTurnover : c.stressTurnoverQuote ≈ d.stressTurnoverQuote

variable {finalMark : Decimal}

theorem equal_result {p : Policy} {s t : CellState} (h : SameAmounts p s t)
    {c d : CellResult} (hc : s.result p finalMark = .ok c) (hd : t.result p finalMark = .ok d) :
    EqualAmounts c d := by
  have hbase := _Account.equity_same p.base finalMark h.base
  have hstress := _Account.equity_same p.stress finalMark h.stress
  unfold CellState.result at hc hd
  obtain ⟨drawdown, hdrawdown, hc⟩ := bind_eq_ok.mp hc
  obtain ⟨drawdown', hdrawdown', hd⟩ := bind_eq_ok.mp hd
  obtain ⟨middle, -, hc⟩ := bind_eq_ok.mp hc
  obtain ⟨middle', -, hd⟩ := bind_eq_ok.mp hd
  cases hc
  cases hd
  have hprofit := _profitFactor_congr (_sum_congr (gains_congr h.base.realized))
    (neg_congr defaultPrecision_pos (_sum_congr (losses_congr h.base.realized)))
  constructor
  · exact sub_congr decimalPrecision_pos hbase rfl
  · exact sub_congr decimalPrecision_pos hstress rfl
  · exact _sum_congr h.base.realized
  · exact _sum_congr h.stress.realized
  · exact (Drawdown.alike_close h.drawdown hbase).rel hdrawdown hdrawdown'
  · dsimp only
    rw [h.base.realized.length_eq]
    exact meanOf_congr (_sum_congr h.base.realized) _ _
  · dsimp only
    rw [h.base.realized.length_eq]
    exact meanOf_congr (_sum_congr h.stress.realized) _ _
  · exact congrArg Prod.fst hprofit
  · exact congrArg Prod.snd hprofit
  · exact h.exposure
  · exact h.base.turnover
  · exact h.stress.turnover

/-- The direction that a result reports. -/
def CellResult.direction (c : CellResult) : Direction where
  position := c.openPositionAtEnd
  entrySignals := c.underlyingEntrySignals
  entryFills := c.entryFills
  exitFills := c.exitFills
  activeHours := c.activeExposureHours
  completedTrades := c.completedTrades

theorem direction_result {p : Policy} {s : CellState} {c : CellResult}
    (h : s.result p finalMark = .ok c) : c.direction = s.direction := by
  unfold CellState.result at h
  obtain ⟨drawdown, -, h⟩ := bind_eq_ok.mp h
  obtain ⟨middle, -, h⟩ := bind_eq_ok.mp h
  cases h
  rfl

section Cell
variable {P : Type} {signal : BarSeries P} {exact : ExactSeries} {shortValues longValues : Indicator}
  {startMs endMs : ℤ} {p : Policy} {scaling : Scaling} {c : CellResult}

theorem simulateCell_eq_ok
    (h : _simulateCell signal exact shortValues longValues startMs endMs p scaling = .ok c) :
    ∃ scale s finalMark, StartsWith exact (bisectLeft exact.times startMs) scale scaling ∧
      loop exact.bars shortValues longValues p scaling (cellStop exact endMs) (.init p scale)
        (cellBars exact startMs endMs) = .ok s ∧
      exact.bars[cellStop exact endMs - 1]?.map (fun last => ofText last.closing) = some finalMark ∧
      s.result p finalMark = .ok c := by
  unfold _simulateCell at h
  obtain ⟨opened, hopened, h⟩ := bind_eq_ok.mp h
  obtain ⟨s, hs, h⟩ := bind_eq_ok.mp h
  obtain ⟨last, hlast, h⟩ := bind_eq_ok.mp h
  obtain ⟨-, hstart, hstop, -, scale, hstate, hscale⟩ := openCell_eq_ok hopened
  rw [hstart] at hscale hs
  rw [hstop] at hs hlast
  rw [hstate] at hs
  have hlast := barAt_eq_ok.mp hlast
  refine ⟨scale, s, ofText last.closing, hscale, hs, ?_, h⟩
  unfold cellStop
  rw [hlast]
  rfl

theorem loop_of_prefix {start : CellState} {s : CellState} {bars : List (Bar String)} {stop : ℕ}
    {is js : List ℕ} (hjs : js <+: is)
    (h : loop bars shortValues longValues p scaling stop start is = .ok s) :
    ∃ t, loop bars shortValues longValues p scaling stop start js = .ok t := by
  obtain ⟨rest, rfl⟩ := hjs
  unfold loop at h ⊢
  rw [List.foldlM_append] at h
  obtain ⟨t, ht, -⟩ := bind_eq_ok.mp h
  exact ⟨t, ht⟩

/-- Scaling keeps the direction; scales of one keep the amounts too. -/
theorem scaling_preserves_direction {schedule : Schedule} {d : CellResult}
    (hc : _simulateCell signal exact shortValues longValues startMs endMs p (some schedule) = .ok c)
    (hd : _simulateCell signal exact shortValues longValues startMs endMs p none = .ok d) :
    c.direction = d.direction ∧
    (∃ scale, StartsWith exact (bisectLeft exact.times startMs) scale (some schedule) ∧
      ∀ is, is <+: cellBars exact startMs endMs → ∃ s t,
        loop exact.bars shortValues longValues p (some schedule) (cellStop exact endMs)
          (.init p scale) is = .ok s ∧
        loop exact.bars shortValues longValues p none (cellStop exact endMs) (.init p 1) is =
          .ok t ∧
        s.direction = t.direction ∧
        ((∀ month, ∀ scale ∈ schedule month, scale ≈ 1) → SameAmounts p s t)) ∧
    ((∀ month, ∀ scale ∈ schedule month, scale ≈ 1) → EqualAmounts c d) := by
  obtain ⟨scale, s, finalMark, hscale, hs, hmark, hc⟩ := simulateCell_eq_ok hc
  obtain ⟨one, t, finalMark', hone, ht, hmark', hd⟩ := simulateCell_eq_ok hd
  cases hone
  cases hmark.symm.trans hmark'
  have hunit : (∀ month, ∀ scale ∈ schedule month, scale ≈ 1) → scale ≈ 1 := by
    intro hall
    obtain ⟨first, -, hfirst⟩ := hscale
    exact hall _ _ hfirst
  refine ⟨?_, ⟨scale, hscale, ?_⟩, ?_⟩
  · rw [direction_result hc, direction_result hd, direction_loop hs, direction_loop ht]
  · intro is his
    obtain ⟨u, hu⟩ := loop_of_prefix his hs
    obtain ⟨w, hw⟩ := loop_of_prefix his ht
    refine ⟨u, w, hu, hw, ?_, fun hall => same_loop hall (hunit hall) hu hw⟩
    rw [direction_loop hu, direction_loop hw]
  · exact fun hall => equal_result (same_loop hall (hunit hall) hs ht) hc hd

end Cell

/-- A round trip with half the quantity, and with the whole one. -/
theorem scaling_preserves_direction_five_hours :
    (∃ c d, _simulateCell fiveHours fiveHours crossing levelOne 0 (5 * hourMs) samplePolicy
        (some fun _ => some (ofText "0.5")) = .ok c ∧
      _simulateCell fiveHours fiveHours crossing levelOne 0 (5 * hourMs) samplePolicy none = .ok d ∧
      c.direction = d.direction) ∧
    ∃ c d, _simulateCell fiveHours fiveHours crossing levelOne 0 (5 * hourMs) samplePolicy
        (some fun _ => some 1) = .ok c ∧
      _simulateCell fiveHours fiveHours crossing levelOne 0 (5 * hourMs) samplePolicy none = .ok d ∧
      EqualAmounts c d := by
  obtain ⟨half, hhalf⟩ : ∃ c, _simulateCell fiveHours fiveHours crossing levelOne 0 (5 * hourMs)
      samplePolicy (some fun _ => some (ofText "0.5")) = .ok c :=
    exists_of_isOk (by decide +kernel)
  obtain ⟨whole, hwhole⟩ : ∃ c, _simulateCell fiveHours fiveHours crossing levelOne 0 (5 * hourMs)
      samplePolicy (some fun _ => some 1) = .ok c :=
    exists_of_isOk (by decide +kernel)
  obtain ⟨plain, hplain⟩ : ∃ c, _simulateCell fiveHours fiveHours crossing levelOne 0 (5 * hourMs)
      samplePolicy none = .ok c :=
    exists_of_isOk (by decide +kernel)
  refine ⟨⟨half, plain, hhalf, hplain, (scaling_preserves_direction hhalf hplain).1⟩, whole, plain,
    hwhole, hplain, (scaling_preserves_direction hwhole hplain).2.2 ?_⟩
  intro month scale hscale
  cases hscale
  rfl

end Generation2.VolScaling

end TradingLab
