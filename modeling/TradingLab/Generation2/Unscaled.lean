import TradingLab.Generation2.VolCell

/-!
# The volatility cell without scaling

Its account keeps a quantity and the cashflow of the cycle where the exact one keeps
the debit of the entry, and adds up in the default context. As long as this context
holds the sums, both accounts are worth the same. A signal before a gap is where the
loops part: the exact cell counts it, this one raises.
-/

namespace TradingLab

open Decimal Search

namespace Generation2.VolScaling

def Held (d : Decimal) : Prop := round defaultPrecision d ≈ d

instance (d : Decimal) : Decidable (Held d) := inferInstanceAs (Decidable (_ ≈ _))

namespace Held

variable {a b c d : Decimal}

theorem of_equiv (h : Held a) (hab : a ≈ b) : Held b :=
  equiv_trans (round_congr defaultPrecision_pos (equiv_symm hab)) (equiv_trans h hab)

theorem representable (h : Held a) : Representable defaultPrecision a.toRat := by
  rw [← equiv_def.mp h]
  exact representable_round defaultPrecision_pos a

theorem negate (h : Held a) : Held (copyNegate a) := by
  obtain ⟨n, e, hn, hvalue⟩ := h.representable
  apply toRat_round defaultPrecision_pos
  refine ⟨-n, e, ?_, ?_⟩
  · rwa [abs_neg]
  · rw [toRat_copyNegate, hvalue]
    push_cast
    ring

theorem round (h : Held a) {prec : ℕ} (hprec : defaultPrecision ≤ prec) : round prec a ≈ a := by
  exact toRat_round (defaultPrecision_pos.trans_le hprec) (h.representable.mono hprec)

theorem add (h : Held a) (hsum : c.toRat + d.toRat = a.toRat) : add defaultPrecision c d ≈ a := by
  apply equiv_trans _ h
  apply round_congr defaultPrecision_pos
  rwa [equiv_def, toRat_addExact]

theorem sub (h : Held a) (hdiff : c.toRat - d.toRat = a.toRat) :
    sub defaultPrecision c d ≈ a := by
  apply h.add
  rwa [toRat_copyNegate, ← sub_eq_add_neg]

theorem add_both (h : Held (addExact a b)) (hac : c ≈ a) (hbd : d ≈ b) :
    Decimal.add defaultPrecision c d ≈ Decimal.add decimalPrecision a b := by
  apply equiv_trans (h.add _) (equiv_symm (h.round (by decide)))
  rw [toRat_addExact, equiv_def.mp hac, equiv_def.mp hbd]

end Held

/-- The sums of an exit in the default context. -/
def ExitHeld (a : Survivor._Account) (r : Rates) (reference quantity : Decimal) : Prop :=
  Held (addExact a.cash (r.sold reference quantity).proceeds) ∧
    ∀ debit ∈ a.entryDebit,
      Held (addExact (r.sold reference quantity).proceeds (copyNegate debit))

instance (a : Survivor._Account) (r : Rates) (reference quantity : Decimal) :
    Decidable (ExitHeld a r reference quantity) := inferInstanceAs (Decidable (_ ∧ _))

/-- An account of the exact cell and one of the volatility cell. -/
structure SameAccount (quantity : Decimal) (a : Survivor._Account) (b : _Account) : Prop where
  cash : b.cash ≈ a.cash
  quantity : b.quantity ≈ if a.entryDebit.isSome then quantity else 0
  cashflow : Option.Rel (fun c d => c ≈ copyNegate d) b.cycleCashflow a.entryDebit
  realized : Equals b.realized a.realized

section Account
variable {a : Survivor._Account} {b : _Account} {quantity amount : Decimal} (r : Rates)
  (reference : Decimal)

theorem not_equiv_zero (h : 0 < quantity) : ¬ quantity ≈ 0 := by
  rw [lt_def] at h
  rw [equiv_def]
  exact h.ne'

theorem same_newAccount (quantity initial : Decimal) :
    SameAccount quantity (Survivor._newAccount initial) (_newAccount initial) :=
  ⟨rfl, rfl, .none, .nil⟩

theorem equity_congr (h : SameAccount quantity a b) (hpos : 0 < quantity) :
    b._equity r reference ≈ a._equity r quantity reference := by
  have hquantity := h.quantity
  unfold _Account._equity Survivor._Account._equity
  cases hdebit : a.entryDebit with
  | none =>
    rw [hdebit, Option.isSome_none, if_neg Bool.false_ne_true] at hquantity
    rw [if_pos hquantity]
    exact h.cash
  | some debit =>
    rw [hdebit, Option.isSome_some, if_pos rfl] at hquantity
    rw [if_neg fun hzero => not_equiv_zero hpos (equiv_trans (equiv_symm hquantity) hzero)]
    exact add_congr decimalPrecision_pos h.cash (r.liquidation_congr reference hquantity)

theorem alike_entry (h : SameAccount quantity a b) (hpos : 0 < quantity)
    (hamount : amount ≈ quantity) (hquantity : Held quantity)
    (hdebit : Held (r.bought reference quantity).debit) :
    Alike (SameAccount quantity) (a._entry r reference quantity)
      (b._buy r reference amount true) := by
  have hcost := r.bought_congr reference hamount
  have hnonneg : ¬ amount < 0 := by
    rw [lt_congr hamount (equiv_refl 0), lt_def, not_lt]
    exact le_of_lt hpos
  have hnonzero : ¬ amount ≈ 0 := fun hzero =>
    not_equiv_zero hpos (equiv_trans (equiv_symm hamount) hzero)
  unfold Survivor._Account._entry _Account._buy _Account.opened
  rw [raiseIf_neg hnonneg, ok_bind]
  have hflow := h.cashflow
  have hheld := h.quantity
  cases hentry : a.entryDebit with
  | some debit =>
    rw [hentry] at hflow
    generalize hb : b.cycleCashflow = flow at hflow
    cases hflow with
    | some hflow =>
      rw [raiseIf_pos Option.isSome_some]
      exact .error _ _
  | none =>
    rw [hentry, Option.isSome_none, if_neg Bool.false_ne_true] at hheld
    rw [hentry] at hflow
    generalize hb : b.cycleCashflow = flow at hflow
    cases hflow with
    | none =>
      dsimp only
      rw [raiseIf_neg (by simp), ok_bind, if_pos hheld, ok_bind, if_neg hnonzero]
      have hcash := sub_congr decimalPrecision_pos h.cash hcost.debit
      apply (Alike.raiseIf _ _ (lt_congr (equiv_symm hcash) (equiv_refl 0))).bind
      intro _ _ _
      apply Alike.ok
      constructor
      · exact hcash
      · dsimp only
        rw [Option.isSome_some, if_pos rfl]
        apply hquantity.add
        rw [equiv_def.mp hheld, equiv_def.mp hamount, toRat_zero, zero_add]
      · apply Option.Rel.some
        apply hdebit.negate.sub
        rw [toRat_zero, zero_sub, toRat_copyNegate, equiv_def.mp hcost.debit]
      · exact h.realized

theorem alike_exit (h : SameAccount quantity a b) (hpos : 0 < quantity)
    (hheld : ExitHeld a r reference quantity) :
    Alike (SameAccount quantity) (a._exit r reference quantity)
      (b._sell r reference b.quantity true) := by
  have hquantity := h.quantity
  have hflow := h.cashflow
  unfold Survivor._Account._exit _Account._sell
  cases hentry : a.entryDebit with
  | none =>
    rw [hentry, Option.isSome_none, if_neg Bool.false_ne_true] at hquantity
    rw [hentry] at hflow
    generalize hb : b.cycleCashflow = flow at hflow
    cases hflow with
    | none =>
      have hvalid : ¬ (b.quantity < 0 ∨ b.quantity < b.quantity) := by
        rw [lt_congr hquantity (equiv_refl 0)]
        simp [lt_def]
      rw [raiseIf_neg hvalid, ok_bind]
      exact .error _ _
  | some debit =>
    rw [hentry, Option.isSome_some, if_pos rfl] at hquantity
    rw [hentry] at hflow
    generalize hb : b.cycleCashflow = flow at hflow
    cases hflow with
    | @some cashflow _ hflow =>
      have hvalid : ¬ (b.quantity < 0 ∨ b.quantity < b.quantity) := by
        rw [lt_congr hquantity (equiv_refl 0)]
        rw [lt_def, toRat_zero] at hpos
        simp [lt_def, hpos.le]
      have hlong : 0 < b.quantity := (lt_congr (equiv_refl 0) hquantity).mpr hpos
      have hproceeds := (r.sold_congr reference hquantity).proceeds
      have hleft : sub defaultPrecision b.quantity b.quantity ≈ 0 := by
        apply Held.sub (show Held 0 by decide)
        rw [sub_self, toRat_zero]
      rw [raiseIf_neg hvalid, ok_bind]
      dsimp only
      unfold _Account.sold _Account.closed
      rw [if_pos rfl, if_pos hlong]
      dsimp only
      rw [if_pos hleft]
      apply Alike.ok
      constructor
      · exact hheld.1.add_both h.cash hproceeds
      · exact hleft
      · exact .none
      · apply List.rel_append h.realized
        apply List.Forall₂.cons _ .nil
        apply equiv_trans _ ((hheld.2 debit hentry).add_both hproceeds hflow)
        apply round_congr defaultPrecision_pos
        rw [equiv_def, toRat_addExact, toRat_addExact, add_comm]

end Account

structure SameCell (p : Policy) (s : Survivor.CellState) (t : CellState) : Prop where
  base : SameAccount p.quantity s.base t.base
  stress : SameAccount p.quantity s.stress t.stress
  position : t.logicalPosition = s.position
  scale : t.currentScale = 1
  drawdown : s.drawdown.Same t.drawdown
  entries : t.entryFills = s.entryFills
  exits : t.exitFills = s.exitFills
  missing : t.missingFills = s.missing

section Loop
variable (bars : List (Bar String)) (shortValues longValues : Indicator) (p : Policy) (stop : ℕ)

/-- The sums of the fill of a bar, in the default context. -/
def FillHeld (s : Survivor.CellState) (i : ℕ) : Prop :=
  ∀ v ∈ valuesAt shortValues longValues i, ∀ next ∈ fillBar bars stop i,
    (v.enter s.position = true →
      Held (p.base.bought (ofText next.opening) p.quantity).debit ∧
        Held (p.stress.bought (ofText next.opening) p.quantity).debit) ∧
    (v.exits s.position = true →
      ExitHeld s.base p.base (ofText next.opening) p.quantity ∧
        ExitHeld s.stress p.stress (ofText next.opening) p.quantity)

/-- No signal of a bar of the window meets a gap. -/
def Filled (s : Survivor.CellState) (i : ℕ) : Prop :=
  ∀ v ∈ valuesAt shortValues longValues i, i ≠ 0 → i + 1 < stop →
    v.enter s.position = true ∨ v.exits s.position = true → (nextBar bars i).isSome

instance (s : Survivor.CellState) (i : ℕ) :
    Decidable (FillHeld bars shortValues longValues p stop s i) :=
  inferInstanceAs (Decidable (∀ v ∈ valuesAt shortValues longValues i, _))

instance (s : Survivor.CellState) (i : ℕ) :
    Decidable (Filled bars shortValues longValues stop s i) :=
  inferInstanceAs (Decidable (∀ v ∈ valuesAt shortValues longValues i, _))

variable {bars shortValues longValues p stop} {s : Survivor.CellState} {t : CellState}

theorem same_init (p : Policy) : SameCell p (.init p) (.init p 1) :=
  ⟨same_newAccount _ _, same_newAccount _ _, rfl, rfl, ⟨rfl, rfl⟩, rfl, rfl, rfl⟩

theorem alike_marked (hpos : 0 < p.quantity) (h : SameCell p s t) (bar : Bar String) :
    Alike (fun s' t' => SameCell p s' t' ∧ ∃ drawdown, s' = { s with drawdown }) (s.marked p bar)
      (t.marked p bar) := by
  have hequity := equiv_symm (equity_congr p.base (ofText bar.closing) h.base hpos)
  unfold Survivor.CellState.marked CellState.marked
  dsimp only
  apply (Drawdown.alike_mark h.drawdown hequity).bind
  intro d d' hd
  refine .ok ⟨?_, d, rfl⟩
  split
  · exact ⟨h.base, h.stress, h.position, h.scale, hd, h.entries, h.exits, h.missing⟩
  · exact ⟨h.base, h.stress, h.position, h.scale, hd, h.entries, h.exits, h.missing⟩

theorem unit_scale (hheld : Held p.quantity) : mul defaultPrecision p.quantity 1 ≈ p.quantity := by
  apply equiv_trans _ hheld
  apply round_congr defaultPrecision_pos
  rw [equiv_def, toRat_mulExact, toRat_one, mul_one]

theorem alike_entered (hpos : 0 < p.quantity) (hheld : Held p.quantity) (h : SameCell p s t)
    (reference : Decimal) (hbase : Held (p.base.bought reference p.quantity).debit)
    (hstress : Held (p.stress.bought reference p.quantity).debit) :
    Alike (SameCell p) (s.entered p reference) (t.entered p reference 1) := by
  unfold Survivor.CellState.entered CellState.entered
  dsimp only
  apply (alike_entry p.base reference h.base hpos (unit_scale hheld) hheld hbase).bind
  intro base base' hbase
  apply (alike_entry p.stress reference h.stress hpos (unit_scale hheld) hheld hstress).bind
  intro stress stress' hstress
  exact .ok ⟨hbase, hstress, rfl, h.scale, h.drawdown, congrArg (· + 1) h.entries, h.exits,
    h.missing⟩

theorem alike_exited (hpos : 0 < p.quantity) (h : SameCell p s t) (reference : Decimal)
    (hbase : ExitHeld s.base p.base reference p.quantity)
    (hstress : ExitHeld s.stress p.stress reference p.quantity) :
    Alike (SameCell p) (s.exited p reference) (t.exited p reference) := by
  unfold Survivor.CellState.exited CellState.exited
  apply (alike_exit p.base reference h.base hpos hbase).bind
  intro base base' hbase
  apply (alike_exit p.stress reference h.stress hpos hstress).bind
  intro stress stress' hstress
  exact .ok ⟨hbase, hstress, rfl, h.scale, h.drawdown, h.entries, congrArg (· + 1) h.exits,
    h.missing⟩

/-- Without a new scale only the signal is acted on. -/
theorem alike_act (hpos : 0 < p.quantity) (hheld : Held p.quantity) (h : SameCell p s t)
    {v : Values} (next : Bar String)
    (hfill : (v.enter s.position = true →
      Held (p.base.bought (ofText next.opening) p.quantity).debit ∧
        Held (p.stress.bought (ofText next.opening) p.quantity).debit) ∧
      (v.exits s.position = true →
        ExitHeld s.base p.base (ofText next.opening) p.quantity ∧
          ExitHeld s.stress p.stress (ofText next.opening) p.quantity))
    (hsignal : v.enter s.position = true ∨ v.exits s.position = true) :
    Alike (SameCell p) (if v.enter s.position then s.entered p (ofText next.opening)
      else s.exited p (ofText next.opening)) (act p t v none (ofText next.opening)) := by
  unfold act
  rw [h.position]
  cases henter : v.enter s.position with
  | true =>
    have hbought := hfill.1 henter
    rw [Values.not_exits_of_enter henter, if_pos rfl, if_neg Bool.false_ne_true, if_pos rfl]
    simp only [Option.getD_none, h.scale, CellState.rescaled, bind_pure]
    exact alike_entered hpos hheld h _ hbought.1 hbought.2
  | false =>
    have hexits : v.exits s.position = true := by simpa [henter] using hsignal
    have hsold := hfill.2 hexits
    rw [if_neg Bool.false_ne_true, if_pos hexits]
    simp only [CellState.rescaled, bind_pure]
    exact alike_exited hpos h _ hsold.1 hsold.2

theorem alike_settle (hpos : 0 < p.quantity) (hheld : Held p.quantity) (h : SameCell p s t)
    {i : ℕ} {v : Values} (hv : valuesAt shortValues longValues i = some v) (hi : i ≠ 0)
    (hfill : FillHeld bars shortValues longValues p stop s i)
    (hfilled : Filled bars shortValues longValues stop s i) :
    Alike (SameCell p) (Survivor.fill bars p stop s i v) (settle bars p stop t i v none) := by
  have hfill := hfill v hv
  have hfilled := hfilled v hv hi
  have hmissed : SameCell p { s with missing := s.missing + 1 }
      { t with missingFills := t.missingFills + 1 } :=
    ⟨h.base, h.stress, h.position, h.scale, h.drawdown, h.entries, h.exits,
      congrArg (· + 1) h.missing⟩
  unfold Survivor.fill settle
  rw [Option.isSome_none, Bool.and_false, Bool.or_false, h.position]
  rw [h.position] at hmissed
  by_cases hsignal : v.enter s.position = true ∨ v.exits s.position = true
  · rw [if_neg (by simp only [Bool.and_eq_true, Bool.not_eq_true']; grind),
      if_pos (by simpa using hsignal)]
    unfold fillBar at hfill ⊢
    by_cases hstop : i + 1 < stop
    · rw [if_pos hstop] at hfill ⊢
      rw [if_neg (by omega)]
      obtain ⟨next, hnext⟩ := Option.isSome_iff_exists.mp (hfilled hstop hsignal)
      rw [hnext] at hfill ⊢
      exact alike_act hpos hheld h next (hfill next rfl) hsignal
    · rw [if_neg hstop, if_pos (by omega)]
      exact .ok hmissed
  · rw [if_pos (by simpa using hsignal), if_neg (by simpa using hsignal)]
    exact .ok h

theorem alike_step (hpos : 0 < p.quantity) (hheld : Held p.quantity) (h : SameCell p s t) (i : ℕ)
    (hfill : FillHeld bars shortValues longValues p stop s i)
    (hfilled : Filled bars shortValues longValues stop s i) :
    Alike (SameCell p) (Survivor.step bars shortValues longValues p stop s i)
      (step bars shortValues longValues p none stop t i) := by
  unfold Survivor.step step
  apply (Alike.refl _).bind
  intro bar bar' hbar
  rw [← hbar]
  apply (alike_marked hpos h bar).bind
  intro s' t' h'
  obtain ⟨h', drawdown, rfl⟩ := h'
  by_cases hi : i = 0
  · rw [if_pos hi, if_pos hi]
    exact .ok h'
  · rw [if_neg hi, if_neg hi]
    cases hv : valuesAt shortValues longValues i with
    | none => exact .ok h'
    | some v =>
      have hcounted : SameCell p { s with drawdown } (t'.counted v) :=
        ⟨h'.base, h'.stress, h'.position, h'.scale, h'.drawdown, h'.entries, h'.exits, h'.missing⟩
      exact alike_settle hpos hheld hcounted hv hi hfill hfilled

/-- A signal before a gap ends the volatility cell. -/
theorem step_of_gap (h : SameCell p s t) {i : ℕ}
    (hfilled : ¬ Filled bars shortValues longValues stop s i) :
    ∃ e, step bars shortValues longValues p none stop t i = .error e := by
  unfold Filled at hfilled
  push Not at hfilled
  obtain ⟨v, hv, hi, hstop, hsignal, hgap⟩ := hfilled
  have hgap : nextBar bars i = none := by simpa using hgap
  cases hstep : step bars shortValues longValues p none stop t i with
  | error e => exact ⟨e, rfl⟩
  | ok t' =>
    cases stepped_of_ok hstep with
    | skipped hbar hmark hskip =>
      rw [Option.mem_def.mp hv] at hskip
      cases hskip with
      | inl hi' => exact (hi hi').elim
      | inr hnone => cases hnone
    | @settled bar u w boundary hbar hmark _ hw hboundary hsettle =>
      have hposition : u.logicalPosition = s.position := by
        rw [← h.position]
        exact (marked_eq_ok hmark).2.2.1
      cases (Option.mem_def.mp hv).symm.trans hw
      have hneeds : (v.enter s.position || v.exits s.position) = true := by simpa using hsignal
      unfold settle CellState.counted at hsettle
      dsimp only at hsettle
      rw [hposition, hneeds, Bool.true_or, if_pos rfl, if_neg (by omega), hgap] at hsettle
      cases hsettle

section Run
variable {is : List ℕ}

abbrev FilledAlong (bars : List (Bar String)) (shortValues longValues : Indicator) (p : Policy)
    (stop : ℕ) (is : List ℕ) : Prop :=
  Along (Filled bars shortValues longValues stop)
    (Survivor.step bars shortValues longValues p stop) (.init p) is

abbrev HeldAlong (bars : List (Bar String)) (shortValues longValues : Indicator) (p : Policy)
    (stop : ℕ) (is : List ℕ) : Prop :=
  Along (FillHeld bars shortValues longValues p stop)
    (Survivor.step bars shortValues longValues p stop) (.init p) is

theorem alike_loop (hpos : 0 < p.quantity) (hheld : Held p.quantity)
    (hfills : HeldAlong bars shortValues longValues p stop is)
    (hfilled : FilledAlong bars shortValues longValues p stop is) :
    Alike (SameCell p) (Survivor.loop bars shortValues longValues p stop is)
      (loop bars shortValues longValues p none stop (.init p 1) is) :=
  Alike.foldlM_along (fun _ _ i h hi => alike_step hpos hheld h i hi.1 hi.2) (same_init p)
    (hfills.and hfilled)

theorem loop_error_of_gap (hpos : 0 < p.quantity) (hheld : Held p.quantity)
    (hfills : HeldAlong bars shortValues longValues p stop is)
    (hfilled : ¬ FilledAlong bars shortValues longValues p stop is) :
    ∃ e, loop bars shortValues longValues p none stop (.init p 1) is = .error e := by
  apply foldlM_error_of_not_along _ _ (same_init p) hfills hfilled
  · exact fun _ _ i h => alike_step hpos hheld h i
  · exact fun _ _ _ h => step_of_gap h

end Run

end Loop

open Survivor (_plain _plain_congr _sum_congr _medianDecimal returnOf_eq _exactCell)

/-- What the claims of both cells agree on. -/
structure SameResult (e : Survivor.ExactResult) (c : CellResult) : Prop where
  base : e.base.netPnlAfterCostsQuote = _plain c.baseNet
  stress : e.stress.netPnlAfterCostsQuote = _plain c.stressNet
  realized : e.base.realizedClosedTradePnlQuote = _plain c.realized
  stressRealized : e.stress.realizedClosedTradePnlQuote = _plain c.stressRealized
  drawdown : e.base.maximumDrawdownFraction = _plain c.maximumDrawdown
  completed : e.completedTrades = c.completedTrades
  entries : e.entryFills = c.entryFills
  exits : e.exitFills = c.exitFills
  missing : e.missingFillSignals = c.missingFillEvents
  openAtEnd : e.openPositionAtEnd = c.openPositionAtEnd

theorem _medianDecimal_of_ne_nil {values : List Decimal} (h : values ≠ []) :
    ∃ middle, _medianDecimal values = .ok middle := by
  have hlength : 0 < (values.mergeSort fun a b => decide (a ≤ b)).length := by
    rw [List.length_mergeSort]
    exact List.length_pos_iff.mpr h
  unfold _medianDecimal
  dsimp only
  rw [List.getElem?_eq_getElem (by omega), List.getElem?_eq_getElem (by omega)]
  dsimp only
  split
  · exact ⟨_, rfl⟩
  · exact ⟨_, rfl⟩

theorem medianScale_eq_ok (t : CellState) : ∃ middle, t.medianScale = .ok middle := by
  unfold CellState.medianScale
  split
  · exact ⟨1, rfl⟩
  · exact _medianDecimal_of_ne_nil ‹_›

theorem alike_result {p : Policy} {s : Survivor.CellState} {t : CellState} (h : SameCell p s t)
    (hpos : 0 < p.quantity) (hinitial : p.initialEquityQuote.coefficient ≠ 0)
    (finalMark : Decimal) : Alike SameResult (s.result p finalMark) (t.result p finalMark) := by
  have hbase := equiv_symm (equity_congr p.base finalMark h.base hpos)
  have hstress := equiv_symm (equity_congr p.stress finalMark h.stress hpos)
  unfold Survivor.CellState.result CellState.result
  dsimp only
  apply (Drawdown.alike_close h.drawdown hbase).bind
  intro drawdown drawdown' hdrawdown
  rw [returnOf_eq _ hinitial, ok_bind, returnOf_eq _ hinitial, ok_bind]
  obtain ⟨middle, hmiddle⟩ := medianScale_eq_ok t
  rw [hmiddle]
  apply Alike.ok
  constructor
  · exact _plain_congr (sub_congr decimalPrecision_pos hbase rfl)
  · exact _plain_congr (sub_congr decimalPrecision_pos hstress rfl)
  · exact (_plain_congr (_sum_congr h.base.realized)).symm
  · exact (_plain_congr (_sum_congr h.stress.realized)).symm
  · exact _plain_congr hdrawdown
  · exact h.base.realized.length_eq.symm
  · exact h.entries.symm
  · exact h.exits.symm
  · exact h.missing.symm
  · exact h.position.symm

theorem barAt_of_lt {P : Type} {bars : List (Bar P)} {i : ℕ} (h : i < bars.length) :
    barAt bars i = .ok bars[i] := by
  unfold barAt
  rw [List.getElem?_eq_getElem h]

section Cell
variable {P : Type} (exact : ExactSeries) (signal : BarSeries P) (shortValues longValues : Indicator)
  (startMs endMs : ℤ) (p : Policy)

def cellBars : List ℕ :=
  windowBars (bisectLeft exact.times startMs) (bisectLeft exact.times endMs)

def cellStop : ℕ := bisectLeft exact.times endMs

variable {exact signal startMs endMs}

theorem cellStop_le (exact : ExactSeries) (endMs : ℤ) : cellStop exact endMs ≤ exact.bars.length := by
  have hle := (List.takeWhile_sublist (fun s => decide (s < endMs)) (l := exact.times)).length_le
  rwa [BarSeries.times, timesOf, List.length_map] at hle

theorem openCell_of_startsWith {scaling : Scaling} {scale : Decimal}
    (htimes : signal.times = exact.times)
    (hwindow : bisectLeft exact.times startMs < bisectLeft exact.times endMs)
    (hscale : StartsWith exact (bisectLeft exact.times startMs) scale scaling) :
    openCell signal exact startMs endMs p scaling =
      .ok ⟨bisectLeft exact.times startMs, bisectLeft exact.times endMs, .init p scale⟩ := by
  have hstop := cellStop_le exact endMs
  have hfirst := barAt_of_lt (hwindow.trans_le hstop)
  unfold openCell
  rw [raiseIf_neg (not_not.mpr htimes), ok_bind]
  dsimp only
  rw [raiseIf_neg (by omega), ok_bind, hfirst, ok_bind]
  cases scaling with
  | none =>
    cases hscale
    rfl
  | some schedule =>
    obtain ⟨first, hfirst', hscale⟩ := hscale
    cases hfirst.symm.trans (barAt_eq_ok.mpr hfirst')
    dsimp only
    rw [hscale]
    rfl

theorem cellBars_ne_nil
    (hwindow : bisectLeft exact.times startMs < bisectLeft exact.times endMs) :
    cellBars exact startMs endMs ≠ [] := by
  unfold cellBars windowBars
  rw [Ne, List.range'_eq_nil_iff]
  omega

theorem alike_cell (hpos : 0 < p.quantity) (hheld : Held p.quantity)
    (hfills : HeldAlong exact.bars shortValues longValues p (cellStop exact endMs)
      (cellBars exact startMs endMs))
    (hfilled : FilledAlong exact.bars shortValues longValues p (cellStop exact endMs)
      (cellBars exact startMs endMs)) :
    Alike SameResult (_exactCell exact signal shortValues longValues startMs endMs p)
      (_simulateCell signal exact shortValues longValues startMs endMs p none) := by
  by_cases htimes : signal.times = exact.times
  · rcases le_or_gt (bisectLeft exact.times endMs) (bisectLeft exact.times startMs) with hle | hwindow
    · unfold _exactCell _simulateCell openCell
      rw [raiseIf_neg (not_not.mpr htimes), raiseIf_neg (not_not.mpr htimes.symm), ok_bind, ok_bind]
      dsimp only
      rw [raiseIf_pos hle, raiseIf_pos hle]
      exact .error _ _
    · unfold _exactCell _simulateCell
      have hone : StartsWith exact (bisectLeft exact.times startMs) 1 none := rfl
      rw [openCell_of_startsWith p htimes hwindow hone, raiseIf_neg (not_not.mpr htimes.symm), ok_bind, ok_bind]
      dsimp only
      rw [raiseIf_neg (by omega), ok_bind]
      refine ((alike_loop hpos hheld hfills hfilled).imp fun s t hs _ hsame =>
        (⟨hsame, Survivor.initial_ne_zero (cellBars_ne_nil hwindow) hs⟩ :
          SameCell p s t ∧ p.initialEquityQuote.coefficient ≠ 0)).bind ?_
      intro s t hst
      apply (Alike.refl _).bind
      intro last last' hlast
      rw [← hlast]
      exact alike_result hst.1 hpos hst.2 _
  · unfold _exactCell _simulateCell openCell
    rw [raiseIf_pos htimes, raiseIf_pos (Ne.symm htimes)]
    exact .error _ _

theorem cell_error_of_gap (hpos : 0 < p.quantity) (hheld : Held p.quantity)
    (hfills : HeldAlong exact.bars shortValues longValues p (cellStop exact endMs)
      (cellBars exact startMs endMs))
    (hfilled : ¬ FilledAlong exact.bars shortValues longValues p (cellStop exact endMs)
      (cellBars exact startMs endMs)) :
    ∃ e, _simulateCell signal exact shortValues longValues startMs endMs p none = .error e := by
  cases hcell : _simulateCell signal exact shortValues longValues startMs endMs p none with
  | error e => exact ⟨e, rfl⟩
  | ok result =>
    obtain ⟨e, he⟩ := loop_error_of_gap hpos hheld hfills hfilled
    unfold _simulateCell at hcell
    obtain ⟨opened, hopened, hcell⟩ := bind_eq_ok.mp hcell
    obtain ⟨-, hstart, hstop, -, scale, hstate, rfl⟩ := openCell_eq_ok hopened
    rw [hstart, hstop, hstate] at hcell
    obtain ⟨t, ht, -⟩ := bind_eq_ok.mp hcell
    unfold cellBars cellStop at he
    rw [he] at ht
    cases ht

theorem cell_ok_iff (hpos : 0 < p.quantity) (hheld : Held p.quantity)
    (hfills : HeldAlong exact.bars shortValues longValues p (cellStop exact endMs)
      (cellBars exact startMs endMs)) :
    (∃ result, _simulateCell signal exact shortValues longValues startMs endMs p none = .ok result) ↔
      (∃ result, _exactCell exact signal shortValues longValues startMs endMs p = .ok result) ∧
        FilledAlong exact.bars shortValues longValues p (cellStop exact endMs)
          (cellBars exact startMs endMs) := by
  by_cases hfilled : FilledAlong exact.bars shortValues longValues p (cellStop exact endMs)
      (cellBars exact startMs endMs)
  · rw [← (alike_cell shortValues longValues p hpos hheld hfills hfilled).ok_iff]
    exact (and_iff_left hfilled).symm
  · constructor
    · rintro ⟨result, hresult⟩
      obtain ⟨e, he⟩ := cell_error_of_gap shortValues longValues p hpos hheld hfills hfilled
      rw [hresult] at he
      cases he
    · exact fun h => (hfilled h.2).elim

theorem sameResult_of_ok (hpos : 0 < p.quantity) (hheld : Held p.quantity)
    (hfills : HeldAlong exact.bars shortValues longValues p (cellStop exact endMs)
      (cellBars exact startMs endMs)) {e : Survivor.ExactResult} {c : CellResult}
    (he : _exactCell exact signal shortValues longValues startMs endMs p = .ok e)
    (hc : _simulateCell signal exact shortValues longValues startMs endMs p none = .ok c) :
    SameResult e c := by
  have hfilled := ((cell_ok_iff shortValues longValues p hpos hheld hfills).mp ⟨c, hc⟩).2
  exact (alike_cell shortValues longValues p hpos hheld hfills hfilled).rel he hc

end Cell

end Generation2.VolScaling

end TradingLab
