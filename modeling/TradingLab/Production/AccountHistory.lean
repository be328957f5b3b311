import TradingLab.Production.Invariants

/-!
# The history of an account

What is done at the open of a bar depends on the bar's open and on what came
before. The marks and the exits that bars add are dated by them, so two runs over
bars that agree up to a time have the same history up to then.
-/

namespace TradingLab.Production
open Series List

section
variable {D : Type} (A : Arithmetic D) {binding other : ProductionUniverseBinding} {symbol : String}
  {cadence : ℤ} {costs : Costs D} {target : D} {previous : Option (Bar × Bool)} {bar : Bar}
  {account : Account D} {t : ℤ}

theorem trade_congr {again : Bar} (htime : again.time = bar.time) (hopening : again.opening = bar.opening)
    (hlater : ∀ last ∈ previous, last.1.time ≤ bar.time) (hbar : bar.time ≤ t)
    (hbinding : binding.effectiveBy t = other.effectiveBy t) :
    trade A other symbol cadence costs target previous again account =
      trade A binding symbol cadence costs target previous bar account := by
  cases previous with
  | none => rfl
  | some last =>
    have hleft : binding.leftMembershipBetween symbol last.1.time bar.time =
        other.leftMembershipBetween symbol last.1.time bar.time :=
      ProductionUniverseBinding.leftMembershipBetween_congr (hlater last rfl) hbar hbinding
    have hmember : binding.isMember symbol bar.time = other.isMember symbol bar.time :=
      ProductionUniverseBinding.isMember_congr hbar hbinding
    unfold trade sell buy
    dsimp only
    rw [htime, hopening, hleft, hmember]

/-- Bars up to a time are scored the same when the universes agree up to then. -/
theorem scoreAll_congr {bars : List Bar} (hascending : (bars.map Bar.time).Pairwise (· < ·))
    (hbars : ∀ bar ∈ bars, bar.time ≤ t)
    (hlater : ∀ last ∈ previous, ∀ bar ∈ bars, last.1.time ≤ bar.time)
    (hbinding : binding.effectiveBy t = other.effectiveBy t) :
    scoreAll A other symbol cadence costs target previous bars account =
      scoreAll A binding symbol cadence costs target previous bars account := by
  induction bars generalizing previous account with
  | nil => rfl
  | cons bar bars ih =>
    rw [map_cons, pairwise_cons] at hascending
    have hbar := hbars bar mem_cons_self
    have hmember : binding.isMember symbol bar.time = other.isMember symbol bar.time :=
      ProductionUniverseBinding.isMember_congr hbar hbinding
    have hscore : score A other symbol cadence costs target previous bar account =
        score A binding symbol cadence costs target previous bar account := by
      unfold score
      rw [trade_congr A rfl rfl (fun last hlast => hlater last hlast bar mem_cons_self) hbar
        hbinding, hmember]
    rw [scoreAll, scoreAll, hscore, ← hmember]
    apply ih hascending.2
    · intro later hlaterBar
      exact hbars later (mem_cons_of_mem bar hlaterBar)
    · intro last hlast later hlaterBar
      cases hlast
      exact (hascending.1 _ (mem_map_of_mem hlaterBar)).le

@[simp] theorem marks_trade :
    (trade A binding symbol cadence costs target previous bar account).marks = account.marks := by
  unfold trade
  cases previous with
  | none => rfl
  | some last =>
    cases account.qty with
    | some qty =>
      dsimp only
      split_ifs <;> rfl
    | none =>
      dsimp only [buy]
      split_ifs <;> rfl

@[simp] theorem memberMarks_trade :
    (trade A binding symbol cadence costs target previous bar account).memberMarks =
      account.memberMarks := by
  unfold trade
  cases previous with
  | none => rfl
  | some last =>
    cases account.qty with
    | some qty =>
      dsimp only
      split_ifs <;> rfl
    | none =>
      dsimp only [buy]
      split_ifs <;> rfl

theorem forcedExitDays_trade :
    (trade A binding symbol cadence costs target previous bar account).forcedExitDays =
        account.forcedExitDays ∨
      (trade A binding symbol cadence costs target previous bar account).forcedExitDays =
        account.forcedExitDays ++ [bar.time / dayMs] := by
  unfold trade
  cases previous with
  | none => exact .inl rfl
  | some last =>
    cases account.qty with
    | some qty =>
      dsimp only
      split_ifs
      · exact .inr rfl
      all_goals exact .inl rfl
    | none =>
      dsimp only [buy]
      split_ifs <;> exact .inl rfl

variable {currentMember heldBefore : Bool}

theorem marks_mark :
    (mark A costs currentMember heldBefore bar account).marks =
      account.marks ++ [(bar.time, equityAt A costs (A.ofDecimal bar.close) account)] := by
  unfold mark
  dsimp only
  split <;> rfl

theorem memberMarks_mark :
    (mark A costs currentMember heldBefore bar account).memberMarks =
      account.memberMarks ++ if currentMember || heldBefore then
        [(bar.time, equityAt A costs (A.ofDecimal bar.close) account)] else [] := by
  unfold mark
  dsimp only
  split
  · rfl
  · exact (append_nil _).symm

theorem forcedExitDays_mark :
    (mark A costs currentMember heldBefore bar account).forcedExitDays = account.forcedExitDays := by
  unfold mark
  dsimp only
  split <;> rfl

/-- What bars add to the history of an account is dated by them. -/
structure Recorded (bars : List Bar) (before after : Account D) : Prop where
  marks : ∃ added, after.marks = before.marks ++ added ∧ ∀ m ∈ added, ∃ bar ∈ bars, bar.time = m.1
  memberMarks : ∃ added, after.memberMarks = before.memberMarks ++ added ∧
    ∀ m ∈ added, ∃ bar ∈ bars, bar.time = m.1
  exits : ∃ added, after.forcedExitDays = before.forcedExitDays ++ added ∧
    ∀ day ∈ added, ∃ bar ∈ bars, bar.time / dayMs = day

theorem dated_append {α : Type} {label : Bar → α → Prop} {xs ys : List Bar} {before middle after : List α}
    (h : ∃ added, middle = before ++ added ∧ ∀ m ∈ added, ∃ bar ∈ xs, label bar m)
    (h' : ∃ added, after = middle ++ added ∧ ∀ m ∈ added, ∃ bar ∈ ys, label bar m) :
    ∃ added, after = before ++ added ∧ ∀ m ∈ added, ∃ bar ∈ xs ++ ys, label bar m := by
  obtain ⟨first, rfl, hfirst⟩ := h
  obtain ⟨second, rfl, hsecond⟩ := h'
  refine ⟨first ++ second, append_assoc _ _ _, ?_⟩
  intro m hm
  rcases mem_append.mp hm with hm | hm
  · obtain ⟨bar, hbar, hm⟩ := hfirst m hm
    exact ⟨bar, mem_append_left ys hbar, hm⟩
  · obtain ⟨bar, hbar, hm⟩ := hsecond m hm
    exact ⟨bar, mem_append_right xs hbar, hm⟩

theorem Recorded.append {xs ys : List Bar} {before middle after : Account D}
    (h : Recorded xs before middle) (h' : Recorded ys middle after) :
    Recorded (xs ++ ys) before after :=
  ⟨dated_append h.marks h'.marks, dated_append h.memberMarks h'.memberMarks,
    dated_append h.exits h'.exits⟩

theorem recorded_score :
    Recorded [bar] account (score A binding symbol cadence costs target previous bar account) := by
  unfold score
  constructor
  · rw [marks_mark, marks_trade]
    exact ⟨_, rfl, by simp⟩
  · rw [memberMarks_mark, memberMarks_trade]
    refine ⟨_, rfl, ?_⟩
    intro m hm
    split at hm
    · exact ⟨bar, mem_singleton_self bar, by simp [mem_singleton.mp hm]⟩
    · simp at hm
  · rw [forcedExitDays_mark]
    have hdays := @forcedExitDays_trade D A binding symbol cadence costs target previous bar account
    rcases hdays with h | h
    · exact ⟨[], by simp [h], by simp⟩
    · exact ⟨[bar.time / dayMs], h, by simp⟩

theorem recorded_scoreAll (bars : List Bar) :
    Recorded bars account (scoreAll A binding symbol cadence costs target previous bars account) := by
  induction bars generalizing previous account with
  | nil => exact ⟨⟨[], by simp [scoreAll], by simp⟩, ⟨[], by simp [scoreAll], by simp⟩,
      ⟨[], by simp [scoreAll], by simp⟩⟩
  | cons bar bars ih =>
    rw [scoreAll]
    exact (recorded_score A).append ih

end

/-- The bars of a series up to a time. -/
def SeriesFields.upTo (t : ℤ) (fields : SeriesFields) : SeriesFields :=
  { fields with bars := Series.upTo Bar.time t fields.bars }

section
variable {D : Type} (A : Arithmetic D) (series : ProductionSeries)
  (binding : ProductionUniverseBinding) (policy : ProductionCostPolicy) (stress : Bool)

/-- The account after what is done at the open of the `n`-th scored bar. -/
def opened (n : ℕ) (bar : Bar) : Account D :=
  trade A binding series.symbol series.timeframe.cadenceMs (policy.costs A stress)
    (A.ofDecimal policy.targetEntryNotional)
    ((series.before n).map fun before => (before, binding.isMember series.symbol before.time)) bar
    (accountAfter A series binding policy stress n)

end

section
variable {D : Type} (A : Arithmetic D) {series again : ProductionSeries}
  {binding other : ProductionUniverseBinding} (policy : ProductionCostPolicy) (stress : Bool) {t : ℤ}

theorem scoredBars_upTo (h : series.toSeriesFields.upTo t = again.toSeriesFields.upTo t) :
    Series.upTo Bar.time t series.scoredBars = Series.upTo Bar.time t again.scoredBars := by
  have hbars : Series.upTo Bar.time t series.bars = Series.upTo Bar.time t again.bars :=
    congrArg SeriesFields.bars h
  unfold ProductionSeries.scoredBars
  unfold Series.upTo at hbars ⊢
  rw [filter_comm, hbars, filter_comm]

theorem take_scoredBars (h : series.toSeriesFields.upTo t = again.toSeriesFields.upTo t) {n : ℕ}
    (hn : n ≤ countUpTo Bar.time t series.scoredBars) :
    series.scoredBars.take n = again.scoredBars.take n := by
  have hbars := scoredBars_upTo h
  have hcount : countUpTo Bar.time t series.scoredBars = countUpTo Bar.time t again.scoredBars := by
    rw [countUpTo_eq_length, countUpTo_eq_length, hbars]
  rw [upTo_eq_take _ scoredBars_pairwise,
    upTo_eq_take _ scoredBars_pairwise, ← hcount] at hbars
  have hcut := congrArg (take n) hbars
  rwa [take_take, take_take, min_eq_left hn] at hcut

variable (h : series.toSeriesFields.upTo t = again.toSeriesFields.upTo t)
  (hbinding : binding.effectiveBy t = other.effectiveBy t)
include h

theorem before_congr {n : ℕ} (hn : n ≤ countUpTo Bar.time t series.scoredBars) :
    series.before n = again.before n := by
  unfold ProductionSeries.before
  cases n with
  | zero => rfl
  | succ n =>
    rw [if_neg (Nat.succ_ne_zero n), if_neg (Nat.succ_ne_zero n), Nat.add_sub_cancel,
      ← getElem?_take_of_lt (Nat.lt_succ_self n), take_scoredBars h hn,
      getElem?_take_of_lt (Nat.lt_succ_self n)]

include hbinding

theorem accountAfter_congr {n : ℕ} (hn : n ≤ countUpTo Bar.time t series.scoredBars) :
    accountAfter A again other policy stress n = accountAfter A series binding policy stress n := by
  have hsymbol : again.symbol = series.symbol := (congrArg SeriesFields.symbol h).symm
  have htimeframe : again.timeframe = series.timeframe := (congrArg SeriesFields.timeframe h).symm
  unfold accountAfter
  rw [hsymbol, htimeframe, ← take_scoredBars h hn]
  apply scoreAll_congr A _ _ _ hbinding
  · rw [map_take]
    exact scoredBars_pairwise.sublist (take_sublist n _)
  · intro bar hbar
    have hmem : bar ∈ Series.upTo Bar.time t series.scoredBars := by
      rw [upTo_eq_take _ scoredBars_pairwise]
      exact (take_subset_take_left _ hn) hbar
    exact ((mem_upTo _).mp hmem).2
  · nofun

/-- What is done at an open is the same after the same bars. -/
theorem opened_congr {n : ℕ} (hn : n ≤ countUpTo Bar.time t series.scoredBars) {bar next : Bar}
    (hbar : series.scoredBars[n]? = some bar) (htime : next.time = bar.time)
    (hopening : next.opening = bar.opening) {s : ℤ} (hts : t ≤ s) (hs : bar.time ≤ s)
    (hlater : binding.effectiveBy s = other.effectiveBy s) :
    opened A again other policy stress n next = opened A series binding policy stress n bar := by
  have hsymbol : again.symbol = series.symbol := (congrArg SeriesFields.symbol h).symm
  have htimeframe : again.timeframe = series.timeframe := (congrArg SeriesFields.timeframe h).symm
  unfold opened
  rw [accountAfter_congr A policy stress h hbinding hn, ← before_congr h hn, hsymbol, htimeframe]
  cases hbefore : series.before n with
  | none => exact trade_congr A htime hopening nofun hs hlater
  | some before =>
    have hearlier := (time_lt_of_before hbefore hbar).2
    have hmember : other.isMember series.symbol before.time =
        binding.isMember series.symbol before.time :=
      (ProductionUniverseBinding.isMember_congr (hearlier.le.trans hs) hlater).symm
    rw [Option.map_some, hmember]
    apply trade_congr A htime hopening _ hs hlater
    intro last hlast
    cases hlast
    exact hearlier.le

end

section
variable {D : Type} (A : Arithmetic D)

theorem scoreAll_append (binding : ProductionUniverseBinding) (symbol : String) (cadence : ℤ)
    (costs : Costs D) (target : D) (previous : Option (Bar × Bool)) (xs ys : List Bar)
    (account : Account D) :
    scoreAll A binding symbol cadence costs target previous (xs ++ ys) account =
      scoreAll A binding symbol cadence costs target (seen binding symbol previous xs) ys
        (scoreAll A binding symbol cadence costs target previous xs account) := by
  induction ys using reverseRecOn generalizing xs with
  | nil => rw [append_nil, scoreAll]
  | append_singleton ys bar ih =>
    rw [← append_assoc, scoreAll_concat, ih, scoreAll_concat]
    congr 1
    unfold seen
    cases ys using reverseRecOn with
    | nil => simp
    | append_singleton ys last => simp [← append_assoc]

variable (series : ProductionSeries) (binding : ProductionUniverseBinding)
  (policy : ProductionCostPolicy) (stress : Bool)

def finalAccount : Account D := accountAfter A series binding policy stress series.scoredBars.length

theorem marks_simulate : (simulate A series binding policy stress).marks =
    (finalAccount A series binding policy stress).marks := by
  unfold simulate
  split
  · next hnone =>
    unfold finalAccount accountAfter
    rw [hnone]
    rfl
  · rfl

theorem memberMarks_simulate : (simulate A series binding policy stress).memberMarks =
    (finalAccount A series binding policy stress).memberMarks := by
  unfold simulate
  split
  · next hnone =>
    unfold finalAccount accountAfter
    rw [hnone]
    rfl
  · rfl

theorem mem_forcedExitDays_simulate {day : ℤ} :
    day ∈ (simulate A series binding policy stress).forcedExitDays ↔
      day ∈ (finalAccount A series binding policy stress).forcedExitDays := by
  unfold simulate
  split
  · next hnone =>
    unfold finalAccount accountAfter
    rw [hnone]
    rfl
  · simp [finalAccount]

theorem recorded_finalAccount (n : ℕ) :
    Recorded (series.scoredBars.drop n) (accountAfter A series binding policy stress n)
      (finalAccount A series binding policy stress) := by
  have happend := scoreAll_append A binding series.symbol series.timeframe.cadenceMs
    (policy.costs A stress) (A.ofDecimal policy.targetEntryNotional) none (series.scoredBars.take n)
    (series.scoredBars.drop n) (openAccount A policy)
  rw [take_append_drop] at happend
  unfold finalAccount accountAfter
  rw [take_length, happend]
  exact recorded_scoreAll A _

theorem recorded_accountAfter (n : ℕ) :
    Recorded (series.scoredBars.take n) (openAccount A policy)
      (accountAfter A series binding policy stress n) := recorded_scoreAll A _

variable {A series binding policy stress} {t : ℤ}

theorem time_le_of_mem_take {bar : Bar}
    (h : bar ∈ series.scoredBars.take (countUpTo Bar.time t series.scoredBars)) : bar.time ≤ t := by
  rw [← upTo_eq_take _ scoredBars_pairwise] at h
  exact ((mem_upTo _).mp h).2

theorem lt_time_of_mem_drop {bar : Bar}
    (h : bar ∈ series.scoredBars.drop (countUpTo Bar.time t series.scoredBars)) : t < bar.time := by
  obtain ⟨i, hi⟩ := mem_iff_getElem?.mp h
  rw [getElem?_drop] at hi
  have hiff := lt_countUpTo_iff Bar.time scoredBars_pairwise hi (t := t)
  by_contra hle
  have hlt := hiff.mpr (not_lt.mp hle)
  omega

/-- What is recorded up to a time comes from the bars up to then. -/
theorem filter_recorded {α : Type} {date : α → ℤ} {first second : List α}
    (hfirst : ∀ m ∈ first, ∃ bar ∈ series.scoredBars.take (countUpTo Bar.time t series.scoredBars),
      bar.time = date m)
    (hsecond : ∀ m ∈ second,
      ∃ bar ∈ series.scoredBars.drop (countUpTo Bar.time t series.scoredBars), bar.time = date m) :
    (first ++ second).filter (fun m => decide (date m ≤ t)) = first := by
  have hbefore : ∀ m ∈ first, date m ≤ t := by
    intro m hm
    obtain ⟨bar, hbar, htime⟩ := hfirst m hm
    exact htime ▸ time_le_of_mem_take hbar
  have hafter : ∀ m ∈ second, t < date m := by
    intro m hm
    obtain ⟨bar, hbar, htime⟩ := hsecond m hm
    exact htime ▸ lt_time_of_mem_drop hbar
  rw [filter_append, filter_eq_self.mpr (by simpa using hbefore),
    filter_eq_nil_iff.mpr (by simpa using hafter), append_nil]

theorem filter_marks :
    (simulate A series binding policy stress).marks.filter (fun m => decide (m.1 ≤ t)) =
      (accountAfter A series binding policy stress (countUpTo Bar.time t series.scoredBars)).marks := by
  obtain ⟨first, hfirst, hdated⟩ := (recorded_accountAfter A series binding policy stress
    (countUpTo Bar.time t series.scoredBars)).marks
  obtain ⟨second, hsecond, hlater⟩ := (recorded_finalAccount A series binding policy stress
    (countUpTo Bar.time t series.scoredBars)).marks
  rw [marks_simulate, hsecond]
  refine filter_recorded ?_ hlater
  rw [hfirst]
  exact hdated

theorem filter_memberMarks :
    (simulate A series binding policy stress).memberMarks.filter (fun m => decide (m.1 ≤ t)) =
      (accountAfter A series binding policy stress
        (countUpTo Bar.time t series.scoredBars)).memberMarks := by
  obtain ⟨first, hfirst, hdated⟩ := (recorded_accountAfter A series binding policy stress
    (countUpTo Bar.time t series.scoredBars)).memberMarks
  obtain ⟨second, hsecond, hlater⟩ := (recorded_finalAccount A series binding policy stress
    (countUpTo Bar.time t series.scoredBars)).memberMarks
  rw [memberMarks_simulate, hsecond]
  refine filter_recorded ?_ hlater
  rw [hfirst]
  exact hdated

theorem mem_exitDays {day : ℤ} (hday : day < t / dayMs) :
    day ∈ (simulate A series binding policy stress).forcedExitDays ↔
      day ∈ (accountAfter A series binding policy stress
        (countUpTo Bar.time t series.scoredBars)).forcedExitDays := by
  obtain ⟨second, hsecond, hlater⟩ := (recorded_finalAccount A series binding policy stress
    (countUpTo Bar.time t series.scoredBars)).exits
  rw [mem_forcedExitDays_simulate, hsecond, mem_append]
  constructor
  · intro h
    rcases h with h | h
    · exact h
    · obtain ⟨bar, hbar, hdate⟩ := hlater day h
      have hle : t / dayMs ≤ bar.time / dayMs :=
        Int.ediv_le_ediv (by decide) (lt_time_of_mem_drop hbar).le
      omega
  · exact Or.inl

end

structure SameUpTo {D : Type} (A : Arithmetic D) (policy : ProductionCostPolicy) (stress : Bool) (t : ℤ)
    (binding other : ProductionUniverseBinding) (series again : ProductionSeries) : Prop where
  marks : (simulate A series binding policy stress).marks.filter (fun m => decide (m.1 ≤ t)) =
    (simulate A again other policy stress).marks.filter fun m => decide (m.1 ≤ t)
  memberMarks :
    (simulate A series binding policy stress).memberMarks.filter (fun m => decide (m.1 ≤ t)) =
      (simulate A again other policy stress).memberMarks.filter fun m => decide (m.1 ≤ t)
  exitDays : ∀ day < t / dayMs, day ∈ (simulate A series binding policy stress).forcedExitDays ↔
    day ∈ (simulate A again other policy stress).forcedExitDays
  bars : Series.upTo Bar.time t series.scoredBars = Series.upTo Bar.time t again.scoredBars
  accounts : ∀ n bar, series.scoredBars[n]? = some bar → bar.time ≤ t →
    opened A again other policy stress n bar = opened A series binding policy stress n bar ∧
      accountAfter A again other policy stress (n + 1) =
        accountAfter A series binding policy stress (n + 1)

/-- Runs over series that agree up to a time agree up to then. -/
theorem sameUpTo {D : Type} (A : Arithmetic D) (policy : ProductionCostPolicy) (stress : Bool) {t : ℤ}
    {binding other : ProductionUniverseBinding} {series again : ProductionSeries}
    (h : series.toSeriesFields.upTo t = again.toSeriesFields.upTo t)
    (hbinding : binding.effectiveBy t = other.effectiveBy t) :
    SameUpTo A policy stress t binding other series again := by
  have hcount : countUpTo Bar.time t again.scoredBars = countUpTo Bar.time t series.scoredBars := by
    rw [countUpTo_eq_length, countUpTo_eq_length, scoredBars_upTo h]
  have haccount := accountAfter_congr A policy stress h hbinding le_rfl
  constructor
  · rw [filter_marks, filter_marks, hcount, haccount]
  · rw [filter_memberMarks, filter_memberMarks, hcount, haccount]
  · intro day hday
    rw [mem_exitDays hday, mem_exitDays hday, hcount, haccount]
  · exact scoredBars_upTo h
  · intro n bar hbar htime
    have hn := (lt_countUpTo_iff Bar.time scoredBars_pairwise hbar).mpr htime
    constructor
    · exact opened_congr A policy stress h hbinding hn.le hbar rfl rfl le_rfl htime hbinding
    · exact accountAfter_congr A policy stress h hbinding hn

end TradingLab.Production
