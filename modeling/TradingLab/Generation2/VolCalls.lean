import TradingLab.Generation2.ScaleLaw

/-!
# Calls of a volatility-scaled account

An account buys and sells in any order. What a call changed before it raised stays
changed, and the cash and the cashflow of a cycle are added up in contexts of their own.
As long as every sum fits, no quote is lost: the cash is the initial cash, the realized
cycles, and what the open cycle has paid.
-/

namespace TradingLab

open Decimal Search Method

namespace Generation2.VolScaling

namespace _Account

/-- The begin of a cycle, or the check that there is one. -/
def opening (startCycle : Bool) : Method _Account SearchError Unit := do
  let a ← read id
  if startCycle then
    check (raiseIf (a.cycleCashflow.isSome ∨ ¬ a.quantity ≈ 0)
      (.vol "overlapping directional entry"))
    modify fun a => { a with cycleCashflow := some 0 }
  else
    check (raiseIf (a.cycleCashflow.isNone) (.vol "rebalance buy outside directional cycle"))

/-- `_buy`, which begins the cycle before it looks at the cash. -/
def buying (r : Rates) (reference quantity : Decimal) (startCycle : Bool) :
    Method _Account SearchError Unit := do
  check (raiseIf (quantity < 0) (.vol "negative buy quantity"))
  opening startCycle
  if quantity ≈ 0 then pure () else do
    let a ← read id
    let c := r.bought reference quantity
    let cash := sub decimalPrecision a.cash c.debit
    check (raiseIf (cash < 0) (.vol "insufficient research cash"))
    modify fun a => { a.charged c with
      cash
      quantity := add defaultPrecision a.quantity quantity
      cycleCashflow := a.cycleCashflow.map fun cashflow => sub defaultPrecision cashflow c.debit }

/-- `_sell`, which books the sale before it looks at what is left. -/
def selling (r : Rates) (reference quantity : Decimal) (closeCycle : Bool) :
    Method _Account SearchError Unit := do
  let a ← read id
  check (raiseIf (quantity < 0 ∨ a.quantity < quantity) (.vol "invalid sell quantity"))
  check (raiseIf (a.cycleCashflow.isNone) (.vol "sell outside directional cycle"))
  modify fun a => a.sold r reference quantity (a.cycleCashflow.getD 0)
  if closeCycle then do
    let a ← read id
    check (raiseIf (¬ a.quantity ≈ 0) (.vol "directional exit left residual quantity"))
    modify fun a => { a with
      realized := a.realized ++ a.cycleCashflow.toList
      cycleCashflow := none }
  else pure ()

end _Account

inductive Call where
  | buy (r : Rates) (reference quantity : Decimal) (startCycle : Bool)
  | sell (r : Rates) (reference quantity : Decimal) (closeCycle : Bool)

def Call.method : Call → Method _Account SearchError Unit
  | .buy r reference quantity startCycle => _Account.buying r reference quantity startCycle
  | .sell r reference quantity closeCycle => _Account.selling r reference quantity closeCycle

section
variable {a b : _Account} {r : Rates} {reference quantity : Decimal}

theorem call_opening (startCycle : Bool) : (_Account.opening startCycle).call a =
    match a.opened startCycle with
    | .ok cashflow => (.ok (), { a with cycleCashflow := some cashflow })
    | .error e => (.error e, a) := by
  obtain ⟨cash, held, cashflow, realized, fee, slippage, turnover⟩ := a
  unfold _Account.opening _Account.opened
  rw [call_read_bind]
  cases startCycle with
  | false => cases cashflow <;> rfl
  | true =>
    cases cashflow with
    | none =>
      by_cases hheld : held ≈ 0
      · rw [if_pos rfl, call_bind, call_check, raiseIf_neg (by simp [hheld])]
        dsimp only
        rw [if_pos hheld]
        rfl
      · rw [if_pos rfl, call_bind, call_check, raiseIf_pos (by simp [hheld])]
        dsimp only
        rw [if_neg hheld]
    | some cashflow =>
      rw [if_pos rfl, call_bind, call_check, raiseIf_pos (by simp)]

variable {startCycle : Bool} {cashflow : Decimal}

theorem opened_eq_ok :
    a.opened startCycle = .ok cashflow ↔
      if startCycle then a.cycleCashflow = none ∧ a.quantity ≈ 0 ∧ cashflow = 0
      else a.cycleCashflow = some cashflow := by
  unfold _Account.opened
  cases startCycle with
  | false => cases a.cycleCashflow <;> simp
  | true =>
    cases a.cycleCashflow with
    | none =>
      rw [if_pos rfl]
      dsimp only
      by_cases hheld : a.quantity ≈ 0
      · rw [if_pos hheld]
        constructor
        · intro h
          cases h
          exact ⟨rfl, hheld, rfl⟩
        · rintro ⟨-, -, rfl⟩
          rfl
      · rw [if_neg hheld]
        simp [hheld]
    | some c => simp

/-- The account after the fill of a buy. -/
def _Account.bought (a : _Account) (r : Rates) (reference quantity cashflow : Decimal) : _Account :=
  let c := r.bought reference quantity
  { a.charged c with
    cash := sub decimalPrecision a.cash c.debit
    quantity := add defaultPrecision a.quantity quantity
    cycleCashflow := some (sub defaultPrecision cashflow c.debit) }

/-- What a buy may do: the cell sees the result, the caller of the method what is left. -/
inductive Bought (a : _Account) (r : Rates) (reference quantity : Decimal) (startCycle : Bool)
    (result : Except SearchError _Account) (after : Except SearchError Unit × _Account) : Prop
  | refused {e : SearchError} (hresult : result = .error e) (hafter : after = (.error e, a))
  | opened {cashflow : Decimal} (hopened : a.opened startCycle = .ok cashflow)
      (hresult : result = .ok { a with cycleCashflow := some cashflow })
      (hafter : after = (.ok (), { a with cycleCashflow := some cashflow }))
  | short {e : SearchError} {cashflow : Decimal} (hopened : a.opened startCycle = .ok cashflow)
      (hquantity : 0 < quantity)
      (hshort : sub decimalPrecision a.cash (r.bought reference quantity).debit < 0)
      (hresult : result = .error e)
      (hafter : after = (.error e, { a with cycleCashflow := some cashflow }))
  | filled {cashflow : Decimal} (hopened : a.opened startCycle = .ok cashflow)
      (hquantity : 0 < quantity)
      (hcash : ¬ sub decimalPrecision a.cash (r.bought reference quantity).debit < 0)
      (hresult : result = .ok (a.bought r reference quantity cashflow))
      (hafter : after = (.ok (), a.bought r reference quantity cashflow))

theorem call_buying (startCycle : Bool) :
    Bought a r reference quantity startCycle (a._buy r reference quantity startCycle)
      ((_Account.buying r reference quantity startCycle).call a) := by
  unfold _Account.buying _Account._buy
  rw [call_bind, call_check]
  by_cases hneg : quantity < 0
  · rw [raiseIf_pos hneg]
    exact .refused rfl rfl
  · rw [raiseIf_neg hneg, ok_bind]
    dsimp only
    rw [call_bind, call_opening]
    cases hopened : a.opened startCycle with
    | error e => exact .refused rfl rfl
    | ok cashflow =>
      rw [ok_bind]
      dsimp only
      by_cases hzero : quantity ≈ 0
      · rw [if_pos hzero, if_pos hzero]
        exact .opened hopened rfl rfl
      · have hpos : 0 < quantity := by
          rw [lt_def, toRat_zero, not_lt] at hneg
          rw [equiv_def, toRat_zero] at hzero
          rw [lt_def, toRat_zero]
          exact lt_of_le_of_ne hneg (Ne.symm hzero)
        rw [if_neg hzero, if_neg hzero, call_read_bind, call_bind, call_check]
        dsimp only [id]
        by_cases hshort : sub decimalPrecision a.cash (r.bought reference quantity).debit < 0
        · rw [raiseIf_pos hshort]
          exact .short hopened hpos hshort rfl rfl
        · rw [raiseIf_neg hshort]
          exact .filled hopened hpos hshort rfl rfl

theorem sold_realized (cashflow : Decimal) :
    (a.sold r reference quantity cashflow).realized = a.realized := by
  unfold _Account.sold
  split <;> rfl

/-- The account after a sale that closes its cycle. -/
def _Account.ended (a : _Account) (r : Rates) (reference quantity cashflow : Decimal) : _Account :=
  let rest := a.sold r reference quantity cashflow
  { rest with realized := rest.realized ++ rest.cycleCashflow.toList, cycleCashflow := none }

inductive Sold (a : _Account) (r : Rates) (reference quantity : Decimal) (closeCycle : Bool)
    (result : Except SearchError _Account) (after : Except SearchError Unit × _Account) : Prop
  | refused {e : SearchError} (hresult : result = .error e) (hafter : after = (.error e, a))
  | sold {cashflow : Decimal} (hflow : a.cycleCashflow = some cashflow)
      (hquantity : quantity ≤ a.quantity) (hopen : closeCycle = false)
      (hresult : result = .ok (a.sold r reference quantity cashflow))
      (hafter : after = (.ok (), a.sold r reference quantity cashflow))
  | residual {e : SearchError} {cashflow : Decimal} (hflow : a.cycleCashflow = some cashflow)
      (hquantity : quantity ≤ a.quantity) (hclose : closeCycle = true)
      (hheld : ¬ (a.sold r reference quantity cashflow).quantity ≈ 0)
      (hresult : result = .error e)
      (hafter : after = (.error e, a.sold r reference quantity cashflow))
  | closed {cashflow : Decimal} (hflow : a.cycleCashflow = some cashflow)
      (hquantity : quantity ≤ a.quantity) (hclose : closeCycle = true)
      (hheld : (a.sold r reference quantity cashflow).quantity ≈ 0)
      (hresult : result = .ok (a.ended r reference quantity cashflow))
      (hafter : after = (.ok (), a.ended r reference quantity cashflow))

theorem call_selling (closeCycle : Bool) :
    Sold a r reference quantity closeCycle (a._sell r reference quantity closeCycle)
      ((_Account.selling r reference quantity closeCycle).call a) := by
  unfold _Account.selling _Account._sell
  rw [call_read_bind, call_bind, call_check]
  dsimp only [id]
  by_cases hbad : quantity < 0 ∨ a.quantity < quantity
  · rw [raiseIf_pos hbad]
    exact .refused rfl rfl
  · have hquantity : quantity ≤ a.quantity := by
      rw [not_or, lt_def, lt_def, not_lt, not_lt] at hbad
      exact hbad.2
    rw [raiseIf_neg hbad, ok_bind]
    dsimp only
    rw [call_bind, call_check]
    by_cases hnone : a.cycleCashflow = none
    · rw [raiseIf_pos (Option.isNone_iff_eq_none.mpr hnone), hnone]
      exact .refused rfl rfl
    · obtain ⟨cashflow, hflow⟩ := Option.ne_none_iff_exists'.mp hnone
      rw [raiseIf_neg (mt Option.isNone_iff_eq_none.mp hnone)]
      dsimp only
      rw [call_modify_bind, hflow, Option.getD_some]
      cases closeCycle with
      | false => exact .sold hflow hquantity rfl rfl rfl
      | true =>
        rw [if_pos rfl, call_read_bind, call_bind, call_check]
        dsimp only [id]
        rw [if_pos rfl]
        unfold _Account.closed
        by_cases hheld : (a.sold r reference quantity cashflow).quantity ≈ 0
        · rw [raiseIf_neg (not_not.mpr hheld), if_pos hheld]
          exact .closed hflow hquantity rfl hheld rfl rfl
        · rw [raiseIf_pos hheld, if_neg hheld]
          exact .residual hflow hquantity rfl hheld rfl rfl

/-- No quote is lost: the cash is the initial cash, the realized cycles, and what the open
cycle has paid; without a cycle nothing is held. -/
structure Conserved (initial : Decimal) (a : _Account) : Prop where
  flat : a.cycleCashflow = none → a.quantity.toRat = 0
  cash : a.cash.toRat = initial.toRat + (a.realized.map toRat).sum +
    (a.cycleCashflow.map toRat).getD 0

theorem conserved_new (initial : Decimal) : Conserved initial (_newAccount initial) := by
  constructor
  · exact fun _ => toRat_zero
  · simp [_newAccount]

/-- The sums of a call fit, and it does not raise halfway. -/
def Call.Fits (a : _Account) : Call → Prop
  | .buy r reference quantity startCycle =>
      0 < quantity → ∀ cashflow, a.opened startCycle = .ok cashflow →
        let debit := (r.bought reference quantity).debit.toRat
        (startCycle → debit ≤ a.cash.toRat) ∧
          (debit ≤ a.cash.toRat → Representable decimalPrecision (a.cash.toRat - debit) ∧
            Representable defaultPrecision (cashflow.toRat - debit))
  | .sell r reference quantity closeCycle =>
      0 < quantity → quantity ≤ a.quantity → ∀ cashflow, a.cycleCashflow = some cashflow →
        let proceeds := (r.sold reference quantity).proceeds.toRat
        (Representable defaultPrecision (a.cash.toRat + proceeds) ∧
          Representable defaultPrecision (cashflow.toRat + proceeds)) ∧
          (closeCycle → a.quantity ≤ quantity)

/-- A call keeps what is conserved, and changes nothing when it raises. -/
structure Keeps (initial : Decimal) (a : _Account) (after : Except SearchError Unit × _Account) :
    Prop where
  conserved : Conserved initial after.2
  unchanged : ∀ e, after.1 = .error e → after.2 = a

variable {initial : Decimal}

theorem Conserved.opened (h : Conserved initial a) (hopened : a.opened startCycle = .ok cashflow) :
    a.cash.toRat = initial.toRat + (a.realized.map toRat).sum + cashflow.toRat := by
  have hcash := h.cash
  rw [opened_eq_ok] at hopened
  split at hopened
  · obtain ⟨hnone, -, rfl⟩ := hopened
    rw [hnone] at hcash
    rw [hcash, toRat_zero]
    rfl
  · rw [hopened] at hcash
    exact hcash

theorem not_start_of_short
    (hfits : (Call.buy r reference quantity startCycle).Fits a) (hquantity : 0 < quantity)
    (hopened : a.opened startCycle = .ok cashflow)
    (hshort : sub decimalPrecision a.cash (r.bought reference quantity).debit < 0) :
    startCycle = false := by
  cases startCycle with
  | false => rfl
  | true =>
    have hcash := (hfits hquantity cashflow hopened).1 rfl
    rw [sub_lt_zero_iff decimalPrecision_pos] at hshort
    exact (hshort.not_ge hcash).elim

theorem keeps_buy (h : Conserved initial a)
    (hfits : (Call.buy r reference quantity startCycle).Fits a) :
    Keeps initial a ((_Account.buying r reference quantity startCycle).call a) := by
  cases @call_buying a r reference quantity startCycle with
  | refused _ hafter =>
    rw [hafter]
    exact ⟨h, fun _ _ => rfl⟩
  | opened hopened _ hafter =>
    rw [hafter]
    exact ⟨⟨nofun, h.opened hopened⟩, nofun⟩
  | short hopened hquantity hshort _ hafter =>
    have hstart := not_start_of_short hfits hquantity hopened hshort
    rw [hstart, opened_eq_ok, if_neg Bool.false_ne_true] at hopened
    rw [hafter, ← hopened]
    exact ⟨h, fun _ _ => rfl⟩
  | @filled cashflow hopened hquantity hcash _ hafter =>
    rw [sub_lt_zero_iff decimalPrecision_pos, lt_def, not_lt] at hcash
    obtain ⟨hfit, hfit'⟩ := (hfits hquantity cashflow hopened).2 hcash
    rw [hafter]
    refine ⟨⟨nofun, ?_⟩, nofun⟩
    change (sub decimalPrecision a.cash _).toRat = _ + (a.realized.map toRat).sum +
      (sub defaultPrecision cashflow _).toRat
    rw [toRat_sub decimalPrecision_pos hfit, toRat_sub defaultPrecision_pos hfit',
      h.opened hopened]
    ring

theorem sold_cases (cashflow : Decimal) :
    (¬ 0 < quantity ∧ a.sold r reference quantity cashflow = a) ∨
      0 < quantity ∧
        (a.sold r reference quantity cashflow).cash =
          add defaultPrecision a.cash (r.sold reference quantity).proceeds ∧
        (a.sold r reference quantity cashflow).quantity =
          sub defaultPrecision a.quantity quantity ∧
        (a.sold r reference quantity cashflow).cycleCashflow =
          some (add defaultPrecision cashflow (r.sold reference quantity).proceeds) := by
  unfold _Account.sold
  by_cases hquantity : 0 < quantity
  · rw [if_pos hquantity]
    exact .inr ⟨hquantity, rfl, rfl, rfl⟩
  · rw [if_neg hquantity]
    exact .inl ⟨hquantity, rfl⟩

variable {closeCycle : Bool}

theorem Conserved.sold (h : Conserved initial a)
    (hflow : a.cycleCashflow = some cashflow) (hheld : quantity ≤ a.quantity)
    (hfits : (Call.sell r reference quantity closeCycle).Fits a) :
    Conserved initial (a.sold r reference quantity cashflow) ∧
      ∃ cashflow', (a.sold r reference quantity cashflow).cycleCashflow = some cashflow' := by
  rcases @sold_cases a r reference quantity cashflow with
    ⟨-, hsame⟩ | ⟨hquantity, hcash, -, hcycle⟩
  · rw [hsame]
    exact ⟨h, cashflow, hflow⟩
  · obtain ⟨⟨hfit, hfit'⟩, -⟩ := hfits hquantity hheld cashflow hflow
    refine ⟨⟨by rw [hcycle]; nofun, ?_⟩, _, hcycle⟩
    rw [hcash, hcycle, sold_realized, toRat_add defaultPrecision_pos hfit, h.cash, hflow]
    change _ = _ + (add defaultPrecision cashflow _).toRat
    rw [toRat_add defaultPrecision_pos hfit']
    change _ + cashflow.toRat + _ = _
    ring

theorem sold_of_close (hflow : a.cycleCashflow = some cashflow)
    (hheld : quantity ≤ a.quantity) (hfits : (Call.sell r reference quantity true).Fits a) :
    a.sold r reference quantity cashflow = a ∨
      (a.sold r reference quantity cashflow).quantity ≈ 0 := by
  rcases @sold_cases a r reference quantity cashflow with ⟨-, hsame⟩ | ⟨hquantity, -, hrest, -⟩
  · exact .inl hsame
  · have hle := (hfits hquantity hheld cashflow hflow).2 rfl
    have hzero : a.quantity.toRat - quantity.toRat = 0 := by
      rw [le_def] at hle hheld
      linarith
    right
    rw [hrest, equiv_def, toRat_zero, toRat_sub defaultPrecision_pos, hzero]
    rw [hzero]
    exact representable_zero _

theorem keeps_sell (h : Conserved initial a)
    (hfits : (Call.sell r reference quantity closeCycle).Fits a) :
    Keeps initial a ((_Account.selling r reference quantity closeCycle).call a) := by
  cases @call_selling a r reference quantity closeCycle with
  | refused _ hafter =>
    rw [hafter]
    exact ⟨h, fun _ _ => rfl⟩
  | sold hflow hheld _ _ hafter =>
    rw [hafter]
    exact ⟨(h.sold hflow hheld hfits).1, nofun⟩
  | residual hflow hheld hclose hleft _ hafter =>
    subst hclose
    rcases sold_of_close hflow hheld hfits with hsame | hnothing
    · rw [hafter, hsame]
      exact ⟨h, fun _ _ => rfl⟩
    · exact (hleft hnothing).elim
  | closed hflow hheld _ hnothing _ hafter =>
    obtain ⟨hsold, cashflow, hcycle⟩ := h.sold hflow hheld hfits
    rw [equiv_def, toRat_zero] at hnothing
    rw [hafter]
    refine ⟨⟨fun _ => hnothing, ?_⟩, nofun⟩
    change (a.sold r reference quantity _).cash.toRat = _ +
      (List.map toRat ((a.sold r reference quantity _).realized ++ _)).sum + 0
    rw [hsold.cash, hcycle, sold_realized, List.map_append, List.sum_append, add_zero, add_assoc]
    simp

theorem keeps_call (h : Conserved initial a) {c : Call} (hfits : c.Fits a) :
    Keeps initial a (c.method.call a) := by
  cases c with
  | buy r reference quantity startCycle => exact keeps_buy h hfits
  | sell r reference quantity closeCycle => exact keeps_sell h hfits

end

def FitAll : List Call → _Account → Prop
  | [], _ => True
  | c :: calls, a => c.Fits a ∧ FitAll calls (c.method.after a)

variable {calls : List Call}

theorem conserved_run {initial : Decimal} {a : _Account}
    (h : Conserved initial a) (hfits : FitAll calls a) :
    Conserved initial (run Call.method calls a) := by
  induction calls generalizing a with
  | nil => exact h
  | cons c calls ih => exact ih (keeps_call h hfits.1).conserved hfits.2

theorem fitAll_append {c : Call} {a : _Account}
    (h : FitAll (calls ++ [c]) a) : FitAll calls a ∧ c.Fits (run Call.method calls a) := by
  induction calls generalizing a with
  | nil => exact ⟨trivial, h.1⟩
  | cons first calls ih =>
    obtain ⟨hcalls, hc⟩ := ih h.2
    exact ⟨⟨h.1, hcalls⟩, hc⟩

section
variable {bars : List (Bar String)} {shortValues longValues : Indicator} {p : Policy}
  {scaling : Scaling} {stop : ℕ} {s t : CellState}

variable {reference : Decimal}

theorem quantity_sold {a b : _Account} {r : Rates} {quantity : Decimal}
    {closeCycle : Bool} (h : a._sell r reference quantity closeCycle = .ok b) :
    b.quantity = if 0 < quantity then sub defaultPrecision a.quantity quantity else a.quantity := by
  have hsold : ∀ cashflow, (a.sold r reference quantity cashflow).quantity =
      if 0 < quantity then sub defaultPrecision a.quantity quantity else a.quantity := by
    intro cashflow
    unfold _Account.sold
    split <;> rfl
  unfold _Account._sell at h
  obtain ⟨-, h⟩ := raiseIf_bind_eq_ok.mp h
  split at h
  · cases h
  · rename_i cashflow _
    rw [← hsold cashflow]
    split at h
    · unfold _Account.closed at h
      split at h
      · cases h
        rfl
      · cases h
    · cases h
      rfl

def CellState.Level (s : CellState) : Prop := s.base.quantity = s.stress.quantity

theorem level_exited (h : s.Level) (ht : s.exited p reference = .ok t) :
    t.Level := by
  unfold CellState.exited at ht
  obtain ⟨base, hbase, ht⟩ := bind_eq_ok.mp ht
  obtain ⟨stress, hstress, ht⟩ := bind_eq_ok.mp ht
  cases ht
  change base.quantity = stress.quantity
  rw [quantity_sold hbase, quantity_sold hstress, h]

variable {scale : Decimal} {v : Values} {boundary : Option Decimal} {i : ℕ}

theorem level_entered (h : s.Level) (ht : s.entered p reference scale = .ok t) : t.Level := by
  unfold CellState.entered at ht
  obtain ⟨base, hbase, ht⟩ := bind_eq_ok.mp ht
  obtain ⟨stress, hstress, ht⟩ := bind_eq_ok.mp ht
  cases ht
  change base.quantity = stress.quantity
  rw [quantity_buy hbase, quantity_buy hstress, h]

theorem level_rebalanced (h : s.Level) (ht : s.rebalanced p reference scale = .ok t) : t.Level := by
  unfold CellState.Level at h ⊢
  unfold CellState.rebalanced at ht
  dsimp only at ht
  generalize sub defaultPrecision (mul defaultPrecision p.quantity scale) s.base.quantity = delta
    at ht
  split at ht
  · obtain ⟨base, hbase, ht⟩ := bind_eq_ok.mp ht
    obtain ⟨stress, hstress, ht⟩ := bind_eq_ok.mp ht
    cases ht
    change base.quantity = stress.quantity
    rw [quantity_buy hbase, quantity_buy hstress, h]
  · split at ht
    · obtain ⟨base, hbase, ht⟩ := bind_eq_ok.mp ht
      obtain ⟨stress, hstress, ht⟩ := bind_eq_ok.mp ht
      cases ht
      change base.quantity = stress.quantity
      rw [quantity_sold hbase, quantity_sold hstress, h]
    · cases ht
      exact h

theorem level_rescaled (h : s.Level) (boundary : Option Decimal) : (s.rescaled boundary).Level := by
  cases boundary with
  | none => exact h
  | some scale => exact h

theorem level_act (h : s.Level) (ht : act p s v boundary reference = .ok t) : t.Level := by
  unfold act at ht
  split at ht
  · obtain ⟨u, hu, ht⟩ := bind_eq_ok.mp ht
    cases ht
    exact level_rescaled (level_exited h hu) boundary
  · split at ht
    · obtain ⟨u, hu, ht⟩ := bind_eq_ok.mp ht
      cases ht
      exact level_rescaled (level_entered h hu) boundary
    · cases boundary with
      | none =>
        cases ht
        exact h
      | some scale =>
        obtain ⟨u, hu, ht⟩ := bind_eq_ok.mp ht
        cases ht
        exact level_rescaled (level_rebalanced h hu) (some scale)

theorem level_settle (h : s.Level) (ht : settle bars p stop s i v boundary = .ok t) : t.Level := by
  unfold settle at ht
  split at ht
  · split at ht
    · cases ht
      exact h
    · split at ht
      · cases ht
      · exact level_act h ht
  · cases ht
    exact level_rescaled h boundary

theorem level_step (h : s.Level)
    (ht : step bars shortValues longValues p scaling stop s i = .ok t) : t.Level := by
  have hmarked : ∀ {bar u}, s.marked p bar = .ok u → u.Level := by
    intro bar u hu
    obtain ⟨hbase, hstress, -⟩ := marked_eq_ok hu
    unfold CellState.Level
    rw [hbase, hstress]
    exact h
  cases stepped_of_ok ht with
  | skipped _ hmark _ => exact hmarked hmark
  | @settled bar u v boundary _ hmark _ _ _ hsettle =>
    have hu := hmarked hmark
    exact level_settle (s := u.counted v) hu hsettle

theorem level_init (scale : Decimal) : (CellState.init p scale).Level := rfl

theorem level_loop {is : List ℕ} (h : s.Level)
    (ht : loop bars shortValues longValues p scaling stop s is = .ok t) : t.Level := by
  induction is generalizing s with
  | nil =>
    cases ht
    exact h
  | cons i is ih =>
    unfold loop at ht
    rw [List.foldlM_cons] at ht
    obtain ⟨u, hu, ht⟩ := bind_eq_ok.mp ht
    exact ih (level_step h hu) ht

end

/-- In every run of calls that fit, no quote is lost, and a call that raises changes nothing.
In every cell the two accounts hold the same after every bar, and a rebalance whose
difference fits leaves both at its target. -/
theorem vol_conservation (initial : Decimal) :
    (∀ calls, FitAll calls (_newAccount initial) →
        Conserved initial (run Call.method calls (_newAccount initial))) ∧
      (∀ calls c e, FitAll (calls ++ [c]) (_newAccount initial) →
        (c.method.call (run Call.method calls (_newAccount initial))).1 = .error e →
          c.method.after (run Call.method calls (_newAccount initial)) =
            run Call.method calls (_newAccount initial)) ∧
      ∀ bars shortValues longValues p scaling stop scale is s,
        loop bars shortValues longValues p scaling stop (.init p scale) is = .ok s →
          s.base.quantity = s.stress.quantity ∧
          ∀ bar u v reference next t, s.marked p bar = .ok u →
            (u.counted v).rebalanced p reference next = .ok t → Adjustable p next s →
              Holds p next t := by
  refine ⟨fun calls => conserved_run (conserved_new initial), ?_, ?_⟩
  · intro calls c e hfits hraised
    obtain ⟨hcalls, hc⟩ := fitAll_append hfits
    exact (keeps_call (conserved_run (conserved_new initial) hcalls) hc).unchanged e hraised
  · intro bars shortValues longValues p scaling stop scale is s hs
    have hlevel : s.Level := level_loop (level_init scale) hs
    refine ⟨hlevel, ?_⟩
    intro bar u v reference next t hu ht hadjustable
    obtain ⟨hbase, hstress, -⟩ := marked_eq_ok hu
    have hsame : u.stress.quantity ≈ u.base.quantity := by
      rw [hbase, hstress, hlevel]
    unfold Adjustable at hadjustable
    rw [← hbase] at hadjustable
    exact holds_rebalanced (s := u.counted v) hsame hadjustable ht

theorem representable_of_equiv {prec : ℕ} (hp : 0 < prec) {d : Decimal} {q : ℚ}
    (h : (Decimal.round prec d).toRat = q) : Representable prec q := by
  rw [← h]
  exact representable_round hp d

/-- A buy and the sale of it. -/
def roundTrip : List Call :=
  [.buy sampleRates (ofText "100") (ofText "0.001") true,
    .sell sampleRates (ofText "100") (ofText "0.001") true]

theorem roundTrip_fits : FitAll roundTrip (_newAccount (ofText "1000")) := by
  refine ⟨?_, ?_, trivial⟩
  · intro _ cashflow hopened
    cases hopened
    refine ⟨fun _ => by decide +kernel, fun _ => ⟨?_, ?_⟩⟩
    · exact representable_of_equiv (d := ofText "999.89984995") decimalPrecision_pos
        (by decide +kernel)
    · exact representable_of_equiv (d := ofText "-0.10015005") defaultPrecision_pos
        (by decide +kernel)
  · intro _ _ cashflow hflow
    have hpaid := congrArg (fun flow => (Option.map toRat flow).getD 0) hflow
    change _ = cashflow.toRat at hpaid
    rw [← hpaid]
    refine ⟨⟨?_, ?_⟩, fun _ => by decide +kernel⟩
    · exact representable_of_equiv (d := ofText "999.9997") defaultPrecision_pos
        (by decide +kernel)
    · exact representable_of_equiv (d := ofText "-0.0003") defaultPrecision_pos
        (by decide +kernel)

/-- The cash of a buy and a sale is what they realize. -/
theorem vol_conservation_round_trip :
    FitAll roundTrip (_newAccount (ofText "1000")) ∧
      Conserved (ofText "1000") (run Call.method roundTrip (_newAccount (ofText "1000"))) :=
  ⟨roundTrip_fits, (vol_conservation (ofText "1000")).1 roundTrip roundTrip_fits⟩

/-- A buy at a price of 33 digits, whose debit the cashflow of the cycle does not hold. -/
def fineBuy : Call :=
  .buy sampleRates (ofText "100.000000000000000000000000000001") (ofText "0.001") true

def costlyBuy : Call := .buy sampleRates (ofText "100") (ofText "1000") true

/-- The cash and the cashflow of a cycle drift apart, and a buy that raises leaves a cycle
behind that it began. -/
theorem cash_lost :
    (¬ Conserved (ofText "10000") (fineBuy.method.after (_newAccount (ofText "10000")))) ∧
      (costlyBuy.method.call (_newAccount (ofText "10000"))).1 =
        .error (.vol "insufficient research cash") ∧
      costlyBuy.method.after (_newAccount (ofText "10000")) ≠ _newAccount (ofText "10000") := by
  refine ⟨?_, by decide +kernel, by decide +kernel⟩
  intro h
  have hcash := h.cash
  revert hcash
  decide +kernel

end Generation2.VolScaling

end TradingLab
