import TradingLab.Production.AccountHistory

/-!
# The stress run against the base run

Both runs trade at the same bars for the same quantity. The stress run pays more for
an entry, and when it also keeps less of a sale, its account is never worth more.
-/

namespace TradingLab.Production

open List

section
variable {D : Type} {A : Arithmetic D}

theorem memberMarks_mark_eq_nil (costs : Costs D) (currentMember heldBefore : Bool) (bar : Bar)
    (account : Account D) : (mark A costs currentMember heldBefore bar account).memberMarks = [] ↔
      account.memberMarks = [] ∧ currentMember = false ∧ heldBefore = false := by
  unfold mark
  cases currentMember <;> cases heldBefore <;> simp

theorem trade_of_nonmember {binding : ProductionUniverseBinding} {symbol : String} {cadence : ℤ}
    {costs : Costs D} {target : D} {previous : Option (Bar × Bool)} {bar : Bar} {account : Account D}
    (hnone : account.qty = none) (hmember : binding.isMember symbol bar.time = false) :
    (trade A binding symbol cadence costs target previous bar account).qty = none := by
  cases previous with
  | none => exact hnone
  | some last =>
    obtain ⟨last, member⟩ := last
    unfold trade
    simp only [hnone, hmember, Bool.and_false, Bool.false_eq_true, if_false]
    split_ifs
    · rfl
    · exact hnone
    · exact hnone

variable (A) in
/-- A symbol has member marks as soon as it was a member at a scored bar. -/
theorem memberMarks_accountAfter (series : ProductionSeries) (binding : ProductionUniverseBinding)
    (policy : ProductionCostPolicy) (stress : Bool) {n : ℕ} (hn : n ≤ series.scoredBars.length) :
    ((accountAfter A series binding policy stress n).memberMarks = [] ↔
        ∀ bar ∈ series.scoredBars.take n, binding.isMember series.symbol bar.time = false) ∧
      ((accountAfter A series binding policy stress n).memberMarks = [] →
        (accountAfter A series binding policy stress n).qty = none) := by
  induction n with
  | zero => simp [accountAfter, scoreAll, openAccount]
  | succ n ih =>
    have hbar := getElem?_eq_getElem (Nat.lt_of_succ_le hn)
    obtain ⟨hmarks, hnone⟩ := ih (Nat.le_of_succ_le hn)
    rw [accountAfter_succ _ _ _ _ _ hbar, score, memberMarks_mark_eq_nil, memberMarks_trade, qty_mark,
      take_succ_eq_append_getElem (Nat.lt_of_succ_le hn)]
    constructor
    · rw [hmarks, forall_mem_append, forall_mem_singleton]
      constructor
      · intro h
        exact ⟨h.1, h.2.1⟩
      · intro h
        refine ⟨h.1, h.2, ?_⟩
        rw [hnone (hmarks.mpr h.1)]
        rfl
    · intro h
      exact trade_of_nonmember (hnone h.1) h.2.1

variable (A) in
theorem evaluable_simulate (series : ProductionSeries) (binding : ProductionUniverseBinding)
    (policy : ProductionCostPolicy) (stress : Bool) :
    (simulate A series binding policy stress).evaluable =
      series.scoredBars.any fun bar => binding.isMember series.symbol bar.time := by
  unfold simulate
  split_ifs with hempty
  · rw [hempty]
    rfl
  · have h := (memberMarks_accountAfter A series binding policy stress le_rfl).1
    rw [take_length] at h
    dsimp only
    rw [Bool.eq_iff_iff, Bool.not_eq_true', ← Bool.not_eq_true, List.isEmpty_iff, h, List.any_eq_true]
    simp

end

section
variable {D : Type} (A : Arithmetic D) (binding : ProductionUniverseBinding)
  (policy : ProductionCostPolicy) (seriesBySymbol : String → Option ProductionSeries)

/-- The base and the stress results of the symbols that have a series. -/
def simulationReplay : List String →
    Except Failure (List (SymbolResult D) × List (SymbolResult D))
  | [] => .ok ([], [])
  | symbol :: symbols =>
      match seriesBySymbol symbol with
      | none => simulationReplay symbols
      | some series => do
          raiseIf (series.symbol ≠ symbol) (.mcf "series map/symbol mismatch")
          let results ← simulationReplay symbols
          return (simulate A series binding policy false :: results.1,
            simulate A series binding policy true :: results.2)

def universeSymbols : List String :=
  (binding.membershipSnapshots.flatMap MembershipSnapshot.symbols).dedup.mergeSort

/-- The evaluable results of a candidate's two runs. -/
def evaluableResults : Except Failure (List (SymbolResult D) × List (SymbolResult D)) := do
  let results ← simulationReplay A binding policy seriesBySymbol (universeSymbols binding)
  let baseEval := results.1.filter SymbolResult.evaluable
  let stressEval := results.2.filter SymbolResult.evaluable
  raiseIf (baseEval.map SymbolResult.symbol ≠ stressEval.map SymbolResult.symbol)
    (.mcf "base/stress evaluable universe mismatch")
  return (baseEval, stressEval)

variable {A binding policy seriesBySymbol}

theorem symbol_simulate (series : ProductionSeries) (stress : Bool) :
    (simulate A series binding policy stress).symbol = series.symbol := by
  unfold simulate
  split_ifs <;> rfl

theorem evaluable_simulationReplay {symbols : List String}
    {results : List (SymbolResult D) × List (SymbolResult D)}
    (h : simulationReplay A binding policy seriesBySymbol symbols = .ok results) :
    (results.1.filter SymbolResult.evaluable).map SymbolResult.symbol =
      (results.2.filter SymbolResult.evaluable).map SymbolResult.symbol := by
  induction symbols generalizing results with
  | nil =>
    cases h
    rfl
  | cons symbol symbols ih =>
    rw [simulationReplay] at h
    split at h
    · exact ih h
    · rename_i series hseries
      rw [raiseIf_bind_eq_ok, bind_eq_ok] at h
      obtain ⟨-, rest, hrest, h⟩ := h
      cases h
      have hrest := ih hrest
      simp only [filter_cons, evaluable_simulate]
      split_ifs
      · rw [map_cons, map_cons, hrest, symbol_simulate, symbol_simulate]
      · exact hrest

theorem evaluableResults_ne_mismatch : evaluableResults A binding policy seriesBySymbol ≠
    .error (.mcf "base/stress evaluable universe mismatch") := by
  intro h
  have hreplay : ∀ symbols, simulationReplay A binding policy seriesBySymbol symbols ≠
      .error (.mcf "base/stress evaluable universe mismatch") := by
    intro symbols
    induction symbols with
    | nil => nofun
    | cons symbol symbols ih =>
      rw [simulationReplay]
      split
      · exact ih
      · intro h
        rw [bind_eq_error] at h
        rcases h with h | ⟨_, -, h⟩
        · rw [raiseIf_eq_error] at h
          exact absurd h.2 (by decide)
        · rw [bind_eq_error] at h
          rcases h with h | ⟨_, -, h⟩
          · exact ih h
          · cases h
  unfold evaluableResults at h
  rw [bind_eq_error] at h
  rcases h with h | ⟨results, hresults, h⟩
  · exact hreplay _ h
  · dsimp only at h
    rw [raiseIf_neg (not_not.mpr (evaluable_simulationReplay hresults))] at h
    cases h

end

/-- The costs of the stress run against those of the base run. -/
structure Dearer (base stress : Costs ℚ) : Prop where
  fee : 0 ≤ base.fee ∧ base.fee ≤ stress.fee
  slip : 0 ≤ base.slip ∧ base.slip ≤ stress.slip
  /-- The stress run keeps no more of a sale. -/
  kept : (1 - stress.slip) * (1 - stress.fee) ≤ (1 - base.slip) * (1 - base.fee)

/-- The stress account is worth no more than the base account, with the same position. -/
structure Ordered (base stress : Account ℚ) : Prop where
  qty : stress.qty = base.qty
  nonneg : ∀ qty, base.qty = some qty → 0 ≤ qty
  cash : stress.cash ≤ base.cash
  fills : stress.fills = base.fills
  completedTrades : stress.completedTrades = base.completedTrades
  marks : List.Forall₂ (fun s b => s.1 = b.1 ∧ s.2 ≤ b.2) stress.marks base.marks

section
variable {costs base stress : Costs ℚ} {target : ℚ} {bar : Bar}

theorem cash_sell_exact (qty : ℚ) (account : Account ℚ) :
    (sell exact costs qty bar account).cash =
      account.cash + qty * bar.opening.toRat * ((1 - costs.slip) * (1 - costs.fee)) := by
  simp only [sell, exact, Nat.cast_one]
  ring

theorem equityAt_exact (close : ℚ) (account : Account ℚ) : equityAt exact costs close account =
    account.cash + account.qty.getD 0 * close * ((1 - costs.slip) * (1 - costs.fee)) := by
  unfold equityAt
  cases account.qty with
  | none => simp
  | some qty =>
    simp only [exact, Nat.cast_one, Option.getD_some]
    ring

theorem debit_eq (hopening : 0 < bar.opening.toRat) :
    target / bar.opening.toRat * (bar.opening.toRat * (1 + costs.slip)) +
        target / bar.opening.toRat * (bar.opening.toRat * (1 + costs.slip)) * costs.fee =
      target * ((1 + costs.slip) * (1 + costs.fee)) := by
  field_simp

theorem buy_exact (hopening : 0 < bar.opening.toRat) {account : Account ℚ}
    (h : (buy exact costs target bar account).failedEntries = account.failedEntries) :
    buy exact costs target bar account = { account with
      cash := account.cash - target * ((1 + costs.slip) * (1 + costs.fee))
      turnoverNotional := account.turnoverNotional +
        target / bar.opening.toRat * (bar.opening.toRat * (1 + costs.slip))
      qty := some (target / bar.opening.toRat)
      fills := account.fills + 1 } := by
  unfold buy at h ⊢
  dsimp only at h ⊢
  split_ifs at h ⊢
  · exact absurd h (Nat.succ_ne_self _)
  · simp only [exact, Nat.cast_one, debit_eq hopening]

theorem failedEntries_trade {D : Type} (A : Arithmetic D) (binding : ProductionUniverseBinding)
    (symbol : String) (cadence : ℤ) (costs : Costs D) (target : D) (previous : Option (Bar × Bool))
    (bar : Bar) (account : Account D) : account.failedEntries ≤
      (trade A binding symbol cadence costs target previous bar account).failedEntries := by
  unfold trade sell buy
  dsimp only
  split
  · exact le_rfl
  · split
    · split_ifs <;> exact le_rfl
    · split_ifs
      · exact le_rfl
      · exact le_rfl
      · exact Nat.le_succ _
      · exact le_rfl
      · exact le_rfl

variable (hdear : Dearer base stress) (htarget : 0 < target) (hopening : 0 < bar.opening.toRat)
  {b s : Account ℚ} (h : Ordered b s)
include hdear h

theorem Ordered.sell {qty : ℚ} (hqty : 0 ≤ qty) (hopening : 0 < bar.opening.toRat) :
    Ordered (sell exact base qty bar b) (sell exact stress qty bar s) where
  qty := rfl
  nonneg := nofun
  cash := by
    rw [cash_sell_exact, cash_sell_exact]
    exact add_le_add h.cash (mul_le_mul_of_nonneg_left hdear.kept (mul_nonneg hqty hopening.le))
  fills := by
    have hfills := h.fills
    simp only [Production.sell, hfills]
  completedTrades := by
    have htrades := h.completedTrades
    simp only [Production.sell, htrades]
  marks := h.marks

include htarget in
theorem Ordered.buy (hopening : 0 < bar.opening.toRat)
    (hb : (buy exact base target bar b).failedEntries = b.failedEntries)
    (hs : (buy exact stress target bar s).failedEntries = s.failedEntries) :
    Ordered (buy exact base target bar b) (buy exact stress target bar s) := by
  have hpaid : target * ((1 + base.slip) * (1 + base.fee)) ≤
      target * ((1 + stress.slip) * (1 + stress.fee)) := by
    apply mul_le_mul_of_nonneg_left _ htarget.le
    apply mul_le_mul <;> linarith [hdear.fee.1, hdear.fee.2, hdear.slip.1, hdear.slip.2]
  rw [buy_exact hopening hb, buy_exact hopening hs]
  constructor
  · rfl
  · intro qty hqty
    cases hqty
    exact div_nonneg htarget.le hopening.le
  · exact sub_le_sub h.cash hpaid
  · exact congrArg Nat.succ h.fills
  · exact h.completedTrades
  · exact h.marks

/-- Both runs do the same at the open of a bar. -/
theorem Ordered.trade {binding : ProductionUniverseBinding} {symbol : String} {cadence : ℤ}
    {previous : Option (Bar × Bool)} (htarget : 0 < target) (hopening : 0 < bar.opening.toRat)
    (hb : (trade exact binding symbol cadence base target previous bar b).failedEntries =
      b.failedEntries)
    (hs : (trade exact binding symbol cadence stress target previous bar s).failedEntries =
      s.failedEntries) :
    Ordered (trade exact binding symbol cadence base target previous bar b)
      (trade exact binding symbol cadence stress target previous bar s) := by
  cases previous with
  | none => exact h
  | some last =>
    obtain ⟨last, member⟩ := last
    unfold Production.trade at hb hs ⊢
    dsimp only at hb hs ⊢
    have hsame := h.qty
    cases hqty : b.qty with
    | some qty =>
      rw [hqty] at hsame
      have hsell := h.sell hdear (h.nonneg qty hqty) hopening
      simp only [hsame]
      split_ifs
      · exact ⟨hsell.qty, hsell.nonneg, hsell.cash, hsell.fills, hsell.completedTrades, hsell.marks⟩
      · exact ⟨rfl, fun q hq => h.nonneg q (hqty.trans hq), h.cash, h.fills, h.completedTrades, h.marks⟩
      · exact h
      · exact hsell
      · exact h
    | none =>
      rw [hqty] at hsame
      simp only [hqty, hsame] at hb hs ⊢
      split_ifs at hb hs ⊢
      · exact ⟨rfl, nofun, h.cash, h.fills, h.completedTrades, h.marks⟩
      · exact h
      · exact h.buy hdear htarget hopening hb hs
      · exact h

theorem Ordered.mark (hclose : 0 < bar.close.toRat) {currentMember heldBefore : Bool} :
    Ordered (mark exact base currentMember heldBefore bar b)
      (mark exact stress currentMember heldBefore bar s) := by
  have hequity : equityAt exact stress bar.close.toRat s ≤ equityAt exact base bar.close.toRat b := by
    have hqty : 0 ≤ b.qty.getD 0 := by
      cases hqty : b.qty with
      | none => exact le_rfl
      | some qty => exact h.nonneg qty hqty
    rw [equityAt_exact, equityAt_exact, h.qty]
    exact add_le_add h.cash (mul_le_mul_of_nonneg_left hdear.kept (mul_nonneg hqty hclose.le))
  have hmarks : ∀ (costs : Costs ℚ) (account : Account ℚ),
      (Production.mark exact costs currentMember heldBefore bar account).marks =
        account.marks ++ [(bar.time, equityAt exact costs bar.close.toRat account)] := by
    intro costs account
    unfold Production.mark
    cases currentMember || heldBefore <;> rfl
  constructor
  · simpa only [qty_mark] using h.qty
  · simpa only [qty_mark] using h.nonneg
  · simpa only [cash_mark] using h.cash
  · simpa only [fills_mark] using h.fills
  · simpa only [completedTrades_mark] using h.completedTrades
  · rw [hmarks, hmarks]
    exact rel_append h.marks (.cons ⟨rfl, hequity⟩ .nil)

end

section
variable {series : ProductionSeries} {binding : ProductionUniverseBinding}
  {policy : ProductionCostPolicy}

theorem failedEntries_mark {D : Type} (A : Arithmetic D) (costs : Costs D)
    (currentMember heldBefore : Bool) (bar : Bar) (account : Account D) :
    (mark A costs currentMember heldBefore bar account).failedEntries = account.failedEntries := by
  unfold mark
  split_ifs <;> rfl

theorem failedEntries_mono {D : Type} (A : Arithmetic D) (stress : Bool) {m n : ℕ} (h : m ≤ n)
    (hn : n ≤ series.scoredBars.length) :
    (accountAfter A series binding policy stress m).failedEntries ≤
      (accountAfter A series binding policy stress n).failedEntries := by
  induction n, h using Nat.le_induction with
  | base => exact le_rfl
  | succ n _ ih =>
    have hbar := getElem?_eq_getElem (Nat.lt_of_succ_le hn)
    rw [accountAfter_succ _ _ _ _ _ hbar, score, failedEntries_mark]
    exact (ih (Nat.le_of_succ_le hn)).trans (failedEntries_trade _ _ _ _ _ _ _ _ _)

theorem failedEntries_simulate {D : Type} (A : Arithmetic D) {stress : Bool}
    (h : (simulate A series binding policy stress).failedEntries = 0) {n : ℕ}
    (hn : n ≤ series.scoredBars.length) :
    (accountAfter A series binding policy stress n).failedEntries = 0 := by
  have hlast : (accountAfter A series binding policy stress series.scoredBars.length).failedEntries =
      0 := by
    unfold simulate at h
    split_ifs at h with hempty
    · rw [hempty]
      rfl
    · exact h
  exact Nat.le_zero.mp (hlast ▸ failedEntries_mono A stress hn le_rfl)

theorem close_pos {bar : Bar} (h : bar ∈ series.scoredBars) : 0 < bar.close.toRat := by
  have hvalid := series.valid
  unfold SeriesFields.validate at hvalid
  simp only [raiseIf_bind_eq_ok, raiseIf_eq_ok, List.any_eq_true, decide_eq_true_eq, not_exists,
    not_and] at hvalid
  have hclose := hvalid.2.2.2.2 bar (mem_filter.mp h).1
  rw [Decimal.le_def, Decimal.toRat_zero] at hclose
  exact not_le.mp hclose

/-- The accounts of both runs are in order after every bar. -/
theorem ordered_accountAfter (hdear : Dearer (policy.costs exact false) (policy.costs exact true))
    (hbase : (simulate exact series binding policy false).failedEntries = 0)
    (hstress : (simulate exact series binding policy true).failedEntries = 0) {n : ℕ}
    (hn : n ≤ series.scoredBars.length) :
    Ordered (accountAfter exact series binding policy false n)
      (accountAfter exact series binding policy true n) := by
  induction n with
  | zero => exact ⟨rfl, nofun, le_rfl, rfl, rfl, .nil⟩
  | succ n ih =>
    have hlt := Nat.lt_of_succ_le hn
    have hbar := getElem?_eq_getElem hlt
    have hmem := getElem_mem hlt
    have h := ih hlt.le
    have hfailed : ∀ {stress : Bool},
        (simulate exact series binding policy stress).failedEntries = 0 →
          (trade exact binding series.symbol series.timeframe.cadenceMs (policy.costs exact stress)
            (exact.ofDecimal policy.targetEntryNotional) ((series.before n).map fun before =>
              (before, binding.isMember series.symbol before.time)) series.scoredBars[n]
            (accountAfter exact series binding policy stress n)).failedEntries =
              (accountAfter exact series binding policy stress n).failedEntries := by
      intro stress hzero
      have hnext := failedEntries_simulate exact hzero hn
      rw [accountAfter_succ _ _ _ _ _ hbar, score, failedEntries_mark] at hnext
      rw [hnext, failedEntries_simulate exact hzero hlt.le]
    have htrade := h.trade hdear policy.targetEntryNotional_pos (opening_pos hmem) (hfailed hbase)
      (hfailed hstress)
    rw [accountAfter_succ _ _ _ _ _ hbar, accountAfter_succ _ _ _ _ _ hbar, score, score, h.qty]
    exact htrade.mark hdear (close_pos hmem)

theorem finalEquity_le {base stress : Account ℚ} (h : Ordered base stress) (initial : ℚ) :
    finalEquity initial stress ≤ finalEquity initial base := by
  have hmarks := forall₂_reverse_iff.mpr h.marks
  unfold finalEquity
  rw [getLast?_eq_head?_reverse, getLast?_eq_head?_reverse]
  generalize stress.marks.reverse = ss at hmarks
  generalize base.marks.reverse = bs at hmarks
  cases hmarks with
  | nil => exact le_rfl
  | cons hfirst _ => exact hfirst.2

end

theorem dearer_of_bps {policy : ProductionCostPolicy}
    (hfee : policy.baseFeeBps ≤ policy.stressFeeBps)
    (hslip : policy.baseSlippageBps ≤ policy.stressSlippageBps)
    (hkept : (1 - (policy.slip true).toRat) * (1 - (policy.fee true).toRat) ≤
      (1 - (policy.slip false).toRat) * (1 - (policy.fee false).toRat)) :
    Dearer (policy.costs exact false) (policy.costs exact true) where
  fee := ⟨fraction_nonneg (policy.feeBps_nonneg false), fraction_mono hfee⟩
  slip := ⟨fraction_nonneg (policy.slippageBps_nonneg false), fraction_mono hslip⟩
  kept := hkept

/-- The two runs of a candidate evaluate the same symbols, whatever the arithmetic. With exact
operations, when the base rates are at most the stress rates, the stress run keeps no more of a
sale and no entry fails, both runs make the same fills, and the stress marks and the stress net
return are at most those of the base run. -/
theorem stress_never_beats_base :
    (∀ (D : Type) (A : Arithmetic D) (series : ProductionSeries)
        (binding : ProductionUniverseBinding) (policy : ProductionCostPolicy)
        (seriesBySymbol : String → Option ProductionSeries),
      (simulate A series binding policy true).evaluable =
          (simulate A series binding policy false).evaluable ∧
        evaluableResults A binding policy seriesBySymbol ≠
          .error (.mcf "base/stress evaluable universe mismatch")) ∧
    ∀ (series : ProductionSeries) (binding : ProductionUniverseBinding)
        (policy : ProductionCostPolicy),
      policy.baseFeeBps ≤ policy.stressFeeBps →
      policy.baseSlippageBps ≤ policy.stressSlippageBps →
      (1 - (policy.slip true).toRat) * (1 - (policy.fee true).toRat) ≤
        (1 - (policy.slip false).toRat) * (1 - (policy.fee false).toRat) →
      (simulate exact series binding policy false).failedEntries = 0 →
      (simulate exact series binding policy true).failedEntries = 0 →
      (∀ n ≤ series.scoredBars.length,
        (accountAfter exact series binding policy true n).qty =
            (accountAfter exact series binding policy false n).qty ∧
          (accountAfter exact series binding policy true n).fills =
            (accountAfter exact series binding policy false n).fills) ∧
      List.Forall₂ (fun s b => s.1 = b.1 ∧ s.2 ≤ b.2) (simulate exact series binding policy true).marks
        (simulate exact series binding policy false).marks ∧
      (simulate exact series binding policy true).netReturn ≤
        (simulate exact series binding policy false).netReturn := by
  constructor
  · intro D A series binding policy seriesBySymbol
    rw [evaluable_simulate, evaluable_simulate]
    exact ⟨rfl, evaluableResults_ne_mismatch⟩
  · intro series binding policy hfee hslip hkept hbase hstress
    have hdear := dearer_of_bps hfee hslip hkept
    have hordered := fun n hn => ordered_accountAfter (n := n) hdear hbase hstress hn
    refine ⟨fun n hn => ⟨(hordered n hn).qty, (hordered n hn).fills⟩, ?_⟩
    have hlast := hordered _ le_rfl
    unfold simulate
    split_ifs with hempty
    · exact ⟨.nil, le_rfl⟩
    · refine ⟨hlast.marks, ?_⟩
      have hequity := finalEquity_le hlast (exact.ofDecimal policy.initialEquity)
      have hinitial : 0 < exact.ofDecimal policy.initialEquity := policy.initialEquity_pos
      change finalEquity _ _ / _ - 1 ≤ finalEquity _ _ / _ - 1
      exact sub_le_sub_right (div_le_div_of_nonneg_right hequity hinitial.le) 1

theorem stress_never_beats_base_sample :
    (simulate exact sampleSeries sampleBinding defaultPolicy true).fills = 2 ∧
      (simulate exact sampleSeries sampleBinding defaultPolicy true).netReturn ≤
        (simulate exact sampleSeries sampleBinding defaultPolicy false).netReturn :=
  ⟨by decide +kernel, (stress_never_beats_base.2 sampleSeries sampleBinding defaultPolicy
    (by decide +kernel) (by decide +kernel) (by decide +kernel) (by decide +kernel)
    (by decide +kernel)).2.2⟩

/-- The stress run pays 300% in fees and in slippage. -/
def overchargedPolicy : ProductionCostPolicy where
  ref := costPolicyRef
  initialEquity := 10000
  targetEntryNotional := 100
  baseFeeBps := 0
  baseSlippageBps := 0
  stressFeeBps := 30000
  stressSlippageBps := 30000
  valid := by decide +kernel

/-- Beyond 100% two losses make a gain, and the stress run wins. -/
theorem stress_beats_base :
    overchargedPolicy.baseFeeBps ≤ overchargedPolicy.stressFeeBps ∧
    overchargedPolicy.baseSlippageBps ≤ overchargedPolicy.stressSlippageBps ∧
    (simulate exact sampleSeries sampleBinding overchargedPolicy false).failedEntries = 0 ∧
    (simulate exact sampleSeries sampleBinding overchargedPolicy true).failedEntries = 0 ∧
    (simulate exact sampleSeries sampleBinding overchargedPolicy false).netReturn <
      (simulate exact sampleSeries sampleBinding overchargedPolicy true).netReturn := by
  decide +kernel

end TradingLab.Production
