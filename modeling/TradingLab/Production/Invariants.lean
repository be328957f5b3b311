import TradingLab.Production.Simulate

/-!
# Invariants of the simulator

After every scored bar the cash is not negative, the fills are those of the trades,
and a position is held only while its symbol is a member of the universe.
-/

namespace Decimal

variable {prec : ℕ} {a b : Decimal}

theorem toRat_add_nonneg (ha : 0 ≤ a.toRat) (hb : 0 ≤ b.toRat) :
    0 ≤ (add prec a b).toRat := by
  apply toRat_round_nonneg
  rw [toRat_addExact]
  exact add_nonneg ha hb

theorem toRat_sub_nonneg (h : b.toRat ≤ a.toRat) :
    0 ≤ (sub prec a b).toRat := by
  apply toRat_round_nonneg
  rw [toRat_addExact, toRat_copyNegate]
  linarith

theorem toRat_mul_nonneg (ha : 0 ≤ a.toRat) (hb : 0 ≤ b.toRat) :
    0 ≤ (mul prec a b).toRat := by
  apply toRat_round_nonneg
  rw [toRat_mulExact]
  exact mul_nonneg ha hb

theorem toRat_quotient_nonneg (ha : 0 ≤ a.toRat) (hb : 0 < b.toRat) :
    0 ≤ (quotient prec a b).toRat := by
  have hsign : b.negative = false := by
    rcases (toRat_nonneg_iff b).mp hb.le with h | h
    · exact h
    · exact absurd ((toRat_eq_zero_iff b).mpr h) hb.ne'
  unfold quotient
  dsimp only
  split_ifs with hzero hr
  · apply toRat_round_nonneg
    exact ((toRat_eq_zero_iff _).mpr rfl).ge
  all_goals
    have hpos : a.negative = false := ((toRat_nonneg_iff a).mp ha).resolve_right hzero
    rw [hpos, hsign, toRat_nonneg_iff]
    exact .inl (negative_round _ _)

theorem toRat_mul_mul_le (hp : 0 < prec) {c : Decimal} (h : 0 ≤ a.toRat * b.toRat)
    (hc : c.toRat ≤ 1) : (mul prec (mul prec a b) c).toRat ≤ (mul prec a b).toRat := by
  have hround : 0 ≤ (mul prec a b).toRat := by
    apply toRat_round_nonneg
    rwa [toRat_mulExact]
  have hself : round prec (mul prec a b) = mul prec a b :=
    round_of_lt_pow hp (coefficient_round_lt hp _)
  have hle : (mulExact (mul prec a b) c).toRat ≤ (mul prec a b).toRat := by
    rw [toRat_mulExact]
    exact mul_le_of_le_one_right hround hc
  have hmono := toRat_round_mono hp hle
  rwa [hself] at hmono

end Decimal

namespace TradingLab.Production

theorem toRat_fraction (bps : Decimal) : (fraction bps).toRat =
    (Decimal.round 28 ⟨bps.negative, bps.coefficient, bps.exponent - 4⟩).toRat :=
  Decimal.toRat_quotient_pow (by norm_num) bps 4

theorem toRat_shifted (bps : Decimal) :
    (⟨bps.negative, bps.coefficient, bps.exponent - 4⟩ : Decimal).toRat = bps.toRat / 10000 := by
  have hpow : (10 : ℚ) ^ (bps.exponent - 4) = 10 ^ bps.exponent / 10000 := by
    rw [zpow_sub₀ (by norm_num)]
    norm_num
  unfold Decimal.toRat Decimal.int
  rw [hpow]
  ring

theorem fraction_mono {a b : Decimal} (h : a ≤ b) : (fraction a).toRat ≤ (fraction b).toRat := by
  rw [toRat_fraction, toRat_fraction]
  apply Decimal.toRat_round_mono (by norm_num)
  rw [toRat_shifted, toRat_shifted]
  exact div_le_div_of_nonneg_right h (by norm_num)

theorem fraction_nonneg {a : Decimal} (h : 0 ≤ a.toRat) : 0 ≤ (fraction a).toRat := by
  rw [toRat_fraction]
  apply Decimal.toRat_round_nonneg
  rw [toRat_shifted]
  exact div_nonneg h (by norm_num)

theorem fraction_le_one {a : Decimal} (h : a.toRat ≤ 10000) : (fraction a).toRat ≤ 1 := by
  have hten : (Decimal.ofInt 10000 0).toRat = 10000 := by
    rw [Decimal.toRat_ofInt]
    norm_num
  have hle : a ≤ Decimal.ofInt 10000 0 := by
    rw [Decimal.le_def, hten]
    exact h
  have hone : (fraction (Decimal.ofInt 10000 0)).toRat = 1 := by
    rw [toRat_fraction, Decimal.round_of_lt_pow (by norm_num) (by decide), toRat_shifted, hten]
    norm_num
  exact (fraction_mono hle).trans hone.le

namespace ProductionCostPolicy
variable (policy : ProductionCostPolicy)

theorem initialEquity_pos : 0 < policy.initialEquity.toRat := by
  have hvalid := policy.valid
  unfold CostPolicyFields.validate at hvalid
  simp only [raiseIf_bind_eq_ok, raiseIf_eq_ok, not_or] at hvalid
  have h := hvalid.2.1
  rw [Decimal.le_def, Decimal.toRat_zero] at h
  exact not_le.mp h

theorem targetEntryNotional_pos : 0 < policy.targetEntryNotional.toRat := by
  have hvalid := policy.valid
  unfold CostPolicyFields.validate at hvalid
  simp only [raiseIf_bind_eq_ok, raiseIf_eq_ok, not_or] at hvalid
  have h := hvalid.2.2.1
  rw [Decimal.le_def, Decimal.toRat_zero] at h
  exact not_le.mp h

theorem feeBps_nonneg (stress : Bool) : 0 ≤ (policy.feeBps stress).toRat := by
  have hvalid := policy.valid
  unfold CostPolicyFields.validate at hvalid
  simp only [raiseIf_bind_eq_ok, raiseIf_eq_ok, not_or, Decimal.lt_def, Decimal.toRat_zero,
    not_lt] at hvalid
  cases stress with
  | false => exact hvalid.2.2.2.2.1
  | true => exact hvalid.2.2.2.2.2.2.1

theorem slippageBps_nonneg (stress : Bool) : 0 ≤ (policy.slippageBps stress).toRat := by
  have hvalid := policy.valid
  unfold CostPolicyFields.validate at hvalid
  simp only [raiseIf_bind_eq_ok, raiseIf_eq_ok, not_or, Decimal.lt_def, Decimal.toRat_zero,
    not_lt] at hvalid
  cases stress with
  | false => exact hvalid.2.2.2.2.2.1
  | true => exact hvalid.2.2.2.2.2.2.2

end ProductionCostPolicy

section
variable {series : ProductionSeries}

theorem scoredBars_pairwise : (series.scoredBars.map Bar.time).Pairwise (· < ·) := by
  have hvalid := series.valid
  unfold SeriesFields.validate at hvalid
  simp only [raiseIf_bind_eq_ok, raiseIf_eq_ok, not_not] at hvalid
  have h := hvalid.2.1
  rw [List.pairwise_map] at h ⊢
  exact h.sublist List.filter_sublist

theorem opening_pos {bar : Bar} (h : bar ∈ series.scoredBars) : 0 < bar.opening.toRat := by
  have hvalid := series.valid
  unfold SeriesFields.validate at hvalid
  simp only [raiseIf_bind_eq_ok, raiseIf_eq_ok, List.any_eq_true, decide_eq_true_eq, not_exists,
    not_and] at hvalid
  have hopening := hvalid.2.2.2.1 bar (List.mem_filter.mp h).1
  rw [Decimal.le_def, Decimal.toRat_zero] at hopening
  exact not_le.mp hopening

theorem developmentStart_le {bar : Bar} (h : bar ∈ series.scoredBars) :
    developmentStartMs ≤ bar.time := by
  have hscored := (List.mem_filter.mp h).2
  simp only [Bar.scored, Bool.and_eq_true, decide_eq_true_eq] at hscored
  exact hscored.1

theorem time_lt_of_before {n : ℕ} {before bar : Bar} (hbefore : series.before n = some before)
    (hbar : series.scoredBars[n]? = some bar) :
    before ∈ series.scoredBars ∧ before.time < bar.time := by
  unfold ProductionSeries.before at hbefore
  split_ifs at hbefore with hn
  obtain ⟨hi, hbefore⟩ := List.getElem?_eq_some_iff.mp hbefore
  obtain ⟨hj, hbar⟩ := List.getElem?_eq_some_iff.mp hbar
  have hpairwise : (series.scoredBars.map Bar.time).Pairwise (· < ·) := scoredBars_pairwise
  rw [List.pairwise_map, List.pairwise_iff_getElem] at hpairwise
  have hlt := hpairwise (n - 1) n hi hj (by omega)
  rw [hbefore, hbar] at hlt
  exact ⟨hbefore ▸ List.getElem_mem hi, hlt⟩

end

theorem lt_decimal34 {a b : Decimal} : decimal34.lt a b = true ↔ a.toRat < b.toRat :=
  decide_eq_true_iff

/-- What holds of an account after a bar. -/
structure Sound (binding : ProductionUniverseBinding) (symbol : String)
    (previous : Option (Bar × Bool)) (account : Account Decimal) : Prop where
  cash : 0 ≤ account.cash.toRat
  fills : account.fills = 2 * account.completedTrades + if account.qty.isSome then 1 else 0
  held : ∀ qty, account.qty = some qty → 0 ≤ qty.toRat ∧ ∃ before, previous = some (before, true) ∧
    developmentStartMs ≤ before.time ∧ binding.isMember symbol before.time = true

theorem sell_cash {costs : Costs Decimal} (hslip : costs.slip.toRat ≤ 1) (hfee : costs.fee.toRat ≤ 1)
    {qty : Decimal} (hqty : 0 ≤ qty.toRat) {bar : Bar} (hopening : 0 < bar.opening.toRat)
    {account : Account Decimal} (hcash : 0 ≤ account.cash.toRat) :
    0 ≤ (sell decimal34 costs qty bar account).cash.toRat := by
  have hone : (Decimal.ofInt 1 0).toRat = 1 := by
    rw [Decimal.toRat_ofInt]
    norm_num
  have hkept : 0 ≤ (Decimal.sub 34 (Decimal.ofInt 1 0) costs.slip).toRat :=
    Decimal.toRat_sub_nonneg (by rwa [hone])
  have hprec : 0 < 34 := by norm_num
  have hprice := @Decimal.toRat_mul_nonneg 34 _ _ hopening.le hkept
  have hpart := Decimal.toRat_mul_mul_le hprec (mul_nonneg hqty hprice) hfee
  unfold sell decimal34
  dsimp only
  exact Decimal.toRat_add_nonneg hcash (Decimal.toRat_sub_nonneg hpart)

section
variable {binding : ProductionUniverseBinding} {symbol : String} {cadence : ℤ}
  {costs : Costs Decimal} {target : Decimal}

/-- What one bar does to a sound account. -/
structure Traded (binding : ProductionUniverseBinding) (symbol : String) (cadence : ℤ)
    (previous : Option (Bar × Bool)) (bar : Bar) (before after : Account Decimal) : Prop where
  cash : 0 ≤ after.cash.toRat
  oneFill : after.fills ≤ before.fills + 1
  fills : after.fills = 2 * after.completedTrades + if after.qty.isSome then 1 else 0
  entry : before.qty = none → ∀ qty, after.qty = some qty → ∃ last,
    previous = some (last, true) ∧ bar.time = last.time + cadence ∧
      last.desiredState = true ∧ binding.isMember symbol bar.time = true
  held : ∀ qty, after.qty = some qty → 0 ≤ qty.toRat ∧ binding.isMember symbol bar.time = true
  leave : before.qty.isSome → ∀ last member, previous = some (last, member) →
    binding.leftMembershipBetween symbol last.time bar.time = true →
      after.qty = none ∧ after.fills = before.fills + 1 ∧
        after.forcedMembershipExits = before.forcedMembershipExits + 1

variable {previous : Option (Bar × Bool)} {bar : Bar} {account : Account Decimal}

/-- A sound account that does not trade at a bar. -/
theorem traded_of_same (h : Sound binding symbol previous account)
    (hstays : ∀ qty last member, account.qty = some qty → previous = some (last, member) →
      binding.leftMembershipBetween symbol last.time bar.time = false)
    (hlater : ∀ last member, previous = some (last, member) → last.time < bar.time)
    {after : Account Decimal} (hcash : after.cash = account.cash) (hqty : after.qty = account.qty)
    (hfills : after.fills = account.fills)
    (htrades : after.completedTrades = account.completedTrades) :
    Traded binding symbol cadence previous bar account after where
  cash := by rw [hcash]; exact h.cash
  oneFill := by omega
  fills := by rw [hfills, htrades, hqty]; exact h.fills
  entry := by
    intro hnone qty hsome
    rw [hqty, hnone] at hsome
    cases hsome
  held := by
    intro qty hsome
    rw [hqty] at hsome
    obtain ⟨hnonneg, last, hprevious, hstart, hmember⟩ := h.held qty hsome
    refine ⟨hnonneg, ?_⟩
    exact binding.isMember_of_not_left hstart (hstays qty last _ hsome hprevious) le_rfl
      (hlater last _ hprevious).le le_rfl hmember
  leave := by
    intro hsome last member hprevious hleft
    obtain ⟨qty, hqty⟩ := Option.isSome_iff_exists.mp hsome
    rw [hstays qty last member hqty hprevious] at hleft
    cases hleft

theorem traded_of_sell (hslip : costs.slip.toRat ≤ 1) (hfee : costs.fee.toRat ≤ 1)
    (hopening : 0 < bar.opening.toRat) (h : Sound binding symbol previous account) {qty : Decimal}
    (hqty : account.qty = some qty) {after : Account Decimal}
    (hcash : after.cash = (sell decimal34 costs qty bar account).cash) (hnone : after.qty = none)
    (hfills : after.fills = account.fills + 1)
    (htrades : after.completedTrades = account.completedTrades + 1)
    (hforced : ∀ last member, previous = some (last, member) →
      binding.leftMembershipBetween symbol last.time bar.time = true →
        after.forcedMembershipExits = account.forcedMembershipExits + 1) :
    Traded binding symbol cadence previous bar account after where
  cash := by
    rw [hcash]
    exact sell_cash hslip hfee (h.held qty hqty).1 hopening h.cash
  oneFill := hfills.le
  fills := by
    have hbefore := h.fills
    rw [hqty] at hbefore
    simp only [Option.isSome_some, if_true] at hbefore
    simp only [hfills, htrades, hnone, Option.isSome_none, Bool.false_eq_true, if_false]
    omega
  entry := by
    intro hbefore
    rw [hqty] at hbefore
    cases hbefore
  held := by
    intro other hother
    rw [hnone] at hother
    cases hother
  leave := fun _ last member hprevious hleft => ⟨hnone, hfills, hforced last member hprevious hleft⟩

theorem traded_of_buy (htarget : 0 < target.toRat) (hopening : 0 < bar.opening.toRat)
    (h : Sound binding symbol previous account) (hnone : account.qty = none) {last : Bar}
    (hprevious : previous = some (last, true)) (hcadence : bar.time = last.time + cadence)
    (hdesired : last.desiredState = true) (hmember : binding.isMember symbol bar.time = true) :
    Traded binding symbol cadence previous bar account
      (buy decimal34 costs target bar account) := by
  have hqty : 0 ≤ (Decimal.quotient 34 target bar.opening).toRat :=
    Decimal.toRat_quotient_nonneg htarget.le hopening
  have hfills := h.fills
  rw [hnone] at hfills
  unfold buy
  dsimp only
  split_ifs with hfailed
  · constructor
    · exact h.cash
    · exact Nat.le_succ _
    · rw [hnone]
      exact hfills
    · intro _ qty hsome
      rw [hnone] at hsome
      cases hsome
    · intro qty hsome
      rw [hnone] at hsome
      cases hsome
    · intro hsome
      rw [hnone] at hsome
      cases hsome
  · constructor
    · apply Decimal.toRat_sub_nonneg
      rw [lt_decimal34] at hfailed
      exact not_lt.mp hfailed
    · exact le_rfl
    · simp only [Option.isSome_none, Bool.false_eq_true, if_false] at hfills
      simp only [Option.isSome_some, if_true]
      omega
    · intro _ qty _
      exact ⟨last, hprevious, hcadence, hdesired, hmember⟩
    · intro qty hsome
      cases hsome
      exact ⟨hqty, hmember⟩
    · intro hsome
      rw [hnone] at hsome
      cases hsome

/-- The action at the open of a bar. -/
theorem traded (hslip : costs.slip.toRat ≤ 1) (hfee : costs.fee.toRat ≤ 1)
    (htarget : 0 < target.toRat) (hopening : 0 < bar.opening.toRat)
    (hlater : ∀ last member, previous = some (last, member) → last.time < bar.time)
    (h : Sound binding symbol previous account) :
    Traded binding symbol cadence previous bar account
      (trade decimal34 binding symbol cadence costs target previous bar account) := by
  cases previous with
  | none => exact traded_of_same h nofun hlater rfl rfl rfl rfl
  | some last =>
    obtain ⟨last, member⟩ := last
    unfold trade
    dsimp only
    split
    · rename_i qty hqty
      have hsame : ∀ stays : binding.leftMembershipBetween symbol last.time bar.time = false,
          ∀ qty other m, account.qty = some qty → some (last, member) = some (other, m) →
            binding.leftMembershipBetween symbol other.time bar.time = false := by
        intro stays _ _ _ _ heq
        cases heq
        exact stays
      split_ifs with hleft hgap hcancel hsell
      · exact traded_of_sell hslip hfee hopening h hqty rfl rfl rfl rfl fun _ _ _ _ => rfl
      · exact traded_of_same h (hsame (by simpa using hleft)) hlater rfl rfl rfl rfl
      · exact traded_of_same h (hsame (by simpa using hleft)) hlater rfl rfl rfl rfl
      · apply traded_of_sell hslip hfee hopening h hqty rfl rfl rfl rfl
        intro other m heq hother
        cases heq
        exact absurd hother hleft
      · exact traded_of_same h (hsame (by simpa using hleft)) hlater rfl rfl rfl rfl
    · rename_i hnone
      have hsame : ∀ qty other m, account.qty = some qty → some (last, member) = some (other, m) →
          binding.leftMembershipBetween symbol other.time bar.time = false := by
        intro qty _ _ hsome
        rw [hnone] at hsome
        cases hsome
      split_ifs with hgap hcancel hbuy
      · exact traded_of_same h hsame hlater rfl rfl rfl rfl
      · exact traded_of_same h hsame hlater rfl rfl rfl rfl
      · simp only [Bool.and_eq_true] at hbuy
        obtain ⟨-, ⟨hdesired, rfl⟩, hmember⟩ := hbuy
        exact traded_of_buy htarget hopening h hnone rfl (not_not.mp hgap) hdesired hmember
      · exact traded_of_same h hsame hlater rfl rfl rfl rfl

end

structure BarLaw (binding : ProductionUniverseBinding) (series : ProductionSeries)
    (previous : Option Bar) (bar : Bar) (before after : Account Decimal) : Prop where
  cash : 0 ≤ after.cash
  oneFill : after.fills ≤ before.fills + 1
  fills : after.fills = 2 * after.completedTrades + if after.qty.isSome then 1 else 0
  /-- A position is opened one cadence after a bar with the desired state on. -/
  entry : before.qty = none → after.qty.isSome → ∃ last, previous = some last ∧
    bar.time = last.time + series.timeframe.cadenceMs ∧ last.desiredState = true ∧
    binding.isMember series.symbol last.time = true ∧ binding.isMember series.symbol bar.time = true
  /-- A position is closed at the first bar after its symbol has left, even if it is back. -/
  leave : before.qty.isSome → ∀ last, previous = some last → ∀ s t, last.time ≤ s → s < t →
    t ≤ bar.time → binding.isMember series.symbol s = true →
      binding.isMember series.symbol t = false → after.qty = none ∧ after.fills = before.fills + 1

section
variable {D : Type} (A : Arithmetic D) (costs : Costs D) (currentMember heldBefore : Bool) (bar : Bar)
  (account : Account D)

@[simp] theorem cash_mark : (mark A costs currentMember heldBefore bar account).cash = account.cash := by
  unfold mark
  split_ifs <;> rfl

@[simp] theorem qty_mark : (mark A costs currentMember heldBefore bar account).qty = account.qty := by
  unfold mark
  split_ifs <;> rfl

@[simp] theorem fills_mark :
    (mark A costs currentMember heldBefore bar account).fills = account.fills := by
  unfold mark
  split_ifs <;> rfl

@[simp] theorem forced_mark : (mark A costs currentMember heldBefore bar account).forcedMembershipExits =
    account.forcedMembershipExits := by
  unfold mark
  split_ifs <;> rfl

@[simp] theorem completedTrades_mark :
    (mark A costs currentMember heldBefore bar account).completedTrades = account.completedTrades := by
  unfold mark
  split_ifs <;> rfl

end

theorem Traded.mark {binding : ProductionUniverseBinding} {symbol : String} {cadence : ℤ}
    {previous : Option (Bar × Bool)} {bar : Bar} {before after : Account Decimal}
    (h : Traded binding symbol cadence previous bar before after) {costs : Costs Decimal}
    {currentMember heldBefore : Bool} : Traded binding symbol cadence previous bar before
      (mark decimal34 costs currentMember heldBefore bar after) := by
  constructor
  · simpa only [cash_mark] using h.cash
  · simpa only [fills_mark] using h.oneFill
  · simpa only [fills_mark, completedTrades_mark, qty_mark] using h.fills
  · simpa only [qty_mark] using h.entry
  · simpa only [qty_mark] using h.held
  · simpa only [qty_mark, fills_mark, forced_mark] using h.leave

section
variable (series : ProductionSeries) (binding : ProductionUniverseBinding)
  (policy : ProductionCostPolicy) (stress : Bool)

theorem costs_le_one (hfee : policy.feeBps stress ≤ Decimal.ofInt 10000 0)
    (hslip : policy.slippageBps stress ≤ Decimal.ofInt 10000 0) :
    (policy.costs decimal34 stress).fee.toRat ≤ 1 ∧ (policy.costs decimal34 stress).slip.toRat ≤ 1 := by
  have hten : (Decimal.ofInt 10000 0).toRat = 10000 := by
    rw [Decimal.toRat_ofInt]
    norm_num
  rw [Decimal.le_def, hten] at hfee hslip
  exact ⟨fraction_le_one hfee, fraction_le_one hslip⟩

variable {series binding policy stress}

/-- A bar after a sound account. -/
theorem traded_accountAfter (hfee : policy.feeBps stress ≤ Decimal.ofInt 10000 0)
    (hslip : policy.slippageBps stress ≤ Decimal.ofInt 10000 0) {n : ℕ} {bar : Bar}
    (hbar : series.scoredBars[n]? = some bar)
    (h : Sound binding series.symbol
      ((series.before n).map fun before => (before, binding.isMember series.symbol before.time))
      (accountAfter decimal34 series binding policy stress n)) :
    Traded binding series.symbol series.timeframe.cadenceMs
      ((series.before n).map fun before => (before, binding.isMember series.symbol before.time)) bar
      (accountAfter decimal34 series binding policy stress n)
      (accountAfter decimal34 series binding policy stress (n + 1)) := by
  have hcosts := costs_le_one policy stress hfee hslip
  have hlater : ∀ last member, (series.before n).map
      (fun before => (before, binding.isMember series.symbol before.time)) = some (last, member) →
        last.time < bar.time := by
    intro last member hlast
    obtain ⟨before, hbefore, heq⟩ := Option.map_eq_some_iff.mp hlast
    cases heq
    exact (time_lt_of_before hbefore hbar).2
  have htarget : 0 < (decimal34.ofDecimal policy.targetEntryNotional).toRat :=
    policy.targetEntryNotional_pos
  rw [accountAfter_succ _ _ _ _ _ hbar]
  exact (traded hcosts.2 hcosts.1 htarget (opening_pos (List.mem_of_getElem? hbar)) hlater h).mark

theorem sound_accountAfter (hfee : policy.feeBps stress ≤ Decimal.ofInt 10000 0)
    (hslip : policy.slippageBps stress ≤ Decimal.ofInt 10000 0) {n : ℕ}
    (hn : n ≤ series.scoredBars.length) :
    Sound binding series.symbol
      ((series.before n).map fun before => (before, binding.isMember series.symbol before.time))
      (accountAfter decimal34 series binding policy stress n) := by
  induction n with
  | zero =>
    constructor
    · exact policy.initialEquity_pos.le
    · rfl
    · intro qty hqty
      cases hqty
  | succ n ih =>
    have hbar := List.getElem?_eq_getElem (Nat.lt_of_succ_le hn)
    have htraded := traded_accountAfter hfee hslip hbar (ih (Nat.le_of_succ_le hn))
    constructor
    · exact htraded.cash
    · exact htraded.fills
    · intro qty hqty
      obtain ⟨hnonneg, hmember⟩ := htraded.held qty hqty
      refine ⟨hnonneg, _, ?_, developmentStart_le (List.getElem_mem (Nat.lt_of_succ_le hn)), hmember⟩
      simp only [ProductionSeries.before, Nat.succ_ne_zero, if_false, Nat.add_sub_cancel, hbar,
        Option.map_some, hmember]

end

/-- After every scored bar the simulator has cash that is not negative, at most one new fill, two
fills for every completed trade and one for the open position; positions are opened one cadence
after a bar with the desired state on, with the symbol a member at both bars, and closed at the
first bar after the symbol has left the universe. -/
theorem simulate_invariants (series : ProductionSeries) (binding : ProductionUniverseBinding)
    (policy : ProductionCostPolicy) (stress : Bool)
    (hfee : policy.feeBps stress ≤ Decimal.ofInt 10000 0)
    (hslip : policy.slippageBps stress ≤ Decimal.ofInt 10000 0) {n : ℕ} {bar : Bar}
    (hbar : series.scoredBars[n]? = some bar) :
    BarLaw binding series (series.before n) bar
      (accountAfter decimal34 series binding policy stress n)
      (accountAfter decimal34 series binding policy stress (n + 1)) := by
  have hn := (List.getElem?_eq_some_iff.mp hbar).1
  have hsound := @sound_accountAfter _ binding _ _ hfee hslip _ hn.le
  have htraded := traded_accountAfter hfee hslip hbar hsound
  constructor
  · rw [Decimal.le_def, Decimal.toRat_zero]
    exact htraded.cash
  · exact htraded.oneFill
  · exact htraded.fills
  · intro hnone hsome
    obtain ⟨qty, hqty⟩ := Option.isSome_iff_exists.mp hsome
    obtain ⟨last, hlast, hcadence, hdesired, hmember⟩ := htraded.entry hnone qty hqty
    obtain ⟨before, hbefore, heq⟩ := Option.map_eq_some_iff.mp hlast
    injection heq with heq hwas
    subst heq
    exact ⟨before, hbefore, hcadence, hdesired, hwas, hmember⟩
  · intro hsome last hlast s t hs hst ht hmember hleft
    have hstart := developmentStart_le (time_lt_of_before hlast hbar).1
    have hbetween : binding.leftMembershipBetween series.symbol last.time bar.time = true := by
      by_contra hno
      rw [Bool.not_eq_true] at hno
      have hstays := binding.isMember_of_not_left hstart hno hs hst.le ht hmember
      rw [hleft] at hstays
      cases hstays
    have hclosed := htraded.leave hsome last _ (by rw [hlast]; rfl) hbetween
    exact ⟨hclosed.1, hclosed.2.1⟩

def sampleSymbol : String := "AUSDT"

def sampleSnapshot : MembershipSnapshot := ⟨0, [sampleSymbol], Sha256.hexDigest []⟩

/-- A universe of one symbol. -/
def sampleBinding : ProductionUniverseBinding where
  universeEvidenceId := universeEvidenceId
  populationManifestSha256 := Sha256.hexDigest []
  qualityIndexSha256 := Sha256.hexDigest []
  universePolicySha256 := Sha256.hexDigest []
  membershipSnapshots := [sampleSnapshot]
  evidencePartition := "DEVELOPMENT"
  valid := by decide +kernel

/-- Bought at the second bar and sold at the third. -/
def sampleSeries : ProductionSeries where
  symbol := sampleSymbol
  timeframe := .m15
  bars := [⟨1583020800000, 1, 1, true, true⟩, ⟨1583021700000, 1, 1, false, true⟩,
    ⟨1583022600000, 10, 10, false, true⟩]
  valid := by decide +kernel

def defaultPolicy : ProductionCostPolicy where
  ref := costPolicyRef
  initialEquity := 10000
  targetEntryNotional := 1000
  baseFeeBps := 10
  baseSlippageBps := 5
  stressFeeBps := 20
  stressSlippageBps := 10
  valid := by decide +kernel

theorem simulate_invariants_sample : ∃ bar : Bar, sampleSeries.scoredBars[1]? = some bar ∧
    BarLaw sampleBinding sampleSeries (sampleSeries.before 1) bar
      (accountAfter decimal34 sampleSeries sampleBinding defaultPolicy true 1)
      (accountAfter decimal34 sampleSeries sampleBinding defaultPolicy true 2) :=
  ⟨⟨1583021700000, 1, 1, false, true⟩, by decide +kernel,
    simulate_invariants sampleSeries sampleBinding defaultPolicy true (by decide +kernel)
      (by decide +kernel) (by decide +kernel)⟩

end TradingLab.Production
