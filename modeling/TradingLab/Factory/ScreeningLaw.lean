import TradingLab.Factory.Screening

/-!
# When a screening is the exact verdict

Beyond the guard band the comparison of a floating-point result decides that of the
exact one. The number of passing folds has no such band: a fold that breaks even
counts by the sign of its rounded result.
-/

namespace TradingLab

open Decimal Json List

namespace Factory.Screening

section Fills
variable {c : FloatCosts} {r : Search.Rates} {quantity : Decimal} {series : Series}
  {policy : CostPolicy} {stress : Bool}

/-- What a fill does to the position and to the number of fills. -/
structure Filled (signal held held' : Bool) (fills fills' : ℕ) : Prop where
  position : held' = signal
  count : fills' = if held = signal then fills else fills + 1

theorem floatStep_filled {s s' : FloatAccount} {bar : Bar} (h : s.step c bar = .ok s') :
    Filled bar.signal s.debit.isSome s'.debit.isSome s.fills s'.fills := by
  unfold FloatAccount.step at h
  obtain ⟨price, -, h⟩ := bind_eq_ok.mp h
  obtain ⟨t, ht, h⟩ := bind_eq_ok.mp h
  obtain ⟨mark, -, h⟩ := bind_eq_ok.mp h
  have hkept : s'.debit = t.debit ∧ s'.fills = t.fills := by
    unfold FloatAccount.marked at h
    dsimp only at h
    split at h
    · cases h
    · cases h
      exact ⟨rfl, rfl⟩
  rw [hkept.1, hkept.2]
  unfold FloatAccount.filled at ht
  cases hdebit : s.debit with
  | none =>
    rw [hdebit] at ht
    cases hsignal : bar.signal with
    | false =>
      rw [hsignal] at ht
      cases ht
      exact ⟨by rw [hdebit]; rfl, rfl⟩
    | true =>
      rw [hsignal] at ht
      dsimp only at ht
      rw [if_pos rfl] at ht
      unfold FloatAccount.entered at ht
      dsimp only at ht
      rw [raiseIf_bind_eq_ok] at ht
      obtain ⟨-, ht⟩ := ht
      cases ht
      exact ⟨rfl, rfl⟩
  | some debit =>
    rw [hdebit] at ht
    cases hsignal : bar.signal with
    | false =>
      rw [hsignal] at ht
      cases ht
      exact ⟨rfl, rfl⟩
    | true =>
      rw [hsignal] at ht
      cases ht
      exact ⟨by rw [hdebit]; rfl, rfl⟩

theorem exactStep_filled {s s' : ExactState} {bar : Bar} (h : s.step r quantity bar = .ok s') :
    Filled bar.signal s.account.entryDebit.isSome s'.account.entryDebit.isSome s.fills s'.fills := by
  unfold ExactState.step at h
  obtain ⟨price, -, h⟩ := bind_eq_ok.mp h
  obtain ⟨t, ht, h⟩ := bind_eq_ok.mp h
  obtain ⟨mark, -, h⟩ := bind_eq_ok.mp h
  cases h
  change Filled bar.signal _ t.account.entryDebit.isSome s.fills t.fills
  unfold ExactState.filled at ht
  cases hdebit : s.account.entryDebit with
  | none =>
    rw [hdebit] at ht
    cases hsignal : bar.signal with
    | false =>
      rw [hsignal] at ht
      cases ht
      exact ⟨by rw [hdebit]; rfl, rfl⟩
    | true =>
      rw [hsignal] at ht
      dsimp only at ht
      rw [if_pos rfl] at ht
      obtain ⟨account, haccount, ht⟩ := bind_eq_ok.mp ht
      cases ht
      unfold Search.Survivor._Account._entry at haccount
      have hentry := mapError_eq_ok.mp haccount
      simp only [raiseIf_bind_eq_ok] at hentry
      obtain ⟨-, -, hentry⟩ := hentry
      cases hentry
      exact ⟨rfl, rfl⟩
  | some debit =>
    rw [hdebit] at ht
    cases hsignal : bar.signal with
    | false =>
      rw [hsignal] at ht
      dsimp only at ht
      rw [if_neg (by decide)] at ht
      obtain ⟨account, haccount, ht⟩ := bind_eq_ok.mp ht
      cases ht
      have hexit := mapError_eq_ok.mp haccount
      unfold Search.Survivor._Account._exit at hexit
      rw [hdebit] at hexit
      cases hexit
      exact ⟨rfl, rfl⟩
    | true =>
      rw [hsignal] at ht
      cases ht
      exact ⟨by rw [hdebit]; rfl, rfl⟩

theorem Filled.eq {signal held held₁ held₂ : Bool} {fills fills₁ fills₂ : ℕ}
    (h : Filled signal held held₁ fills fills₁) (h' : Filled signal held held₂ fills fills₂) :
    held₁ = held₂ ∧ fills₁ = fills₂ :=
  ⟨h.position.trans h'.position.symm, h.count.trans h'.count.symm⟩

theorem loop_filled {bars : List Bar} {s s' : FloatAccount} {e e' : ExactState}
    (hheld : s.debit.isSome = e.account.entryDebit.isSome) (hfills : s.fills = e.fills)
    (hs : bars.foldlM (FloatAccount.step c) s = .ok s')
    (he : bars.foldlM (ExactState.step r quantity) e = .ok e') : s'.fills = e'.fills := by
  induction bars generalizing s e with
  | nil =>
    cases hs
    cases he
    exact hfills
  | cons bar bars ih =>
    rw [foldlM_cons] at hs he
    obtain ⟨t, ht, hs⟩ := bind_eq_ok.mp hs
    obtain ⟨u, hu, he⟩ := bind_eq_ok.mp he
    have hfloat := floatStep_filled ht
    have hexact := exactStep_filled hu
    rw [hheld, hfills] at hfloat
    obtain ⟨hheld', hfills'⟩ := hfloat.eq hexact
    exact ih hheld' hfills' hs he

theorem fills_eq {f : FloatResult} {e : ExactResult}
    (hf : floatAccount series policy stress = .ok f)
    (he : account series policy stress = .ok e) : f.fills = e.fills := by
  unfold floatAccount at hf
  unfold account at he
  obtain ⟨amounts, hamounts, hf⟩ := bind_eq_ok.mp hf
  rw [hamounts, ok_bind, raiseIf_bind_eq_ok] at he
  obtain ⟨-, he⟩ := he
  obtain ⟨s, hs, hf⟩ := bind_eq_ok.mp hf
  obtain ⟨t, ht, he⟩ := bind_eq_ok.mp he
  obtain ⟨mark, -, hf⟩ := bind_eq_ok.mp hf
  obtain ⟨mark', -, he⟩ := bind_eq_ok.mp he
  cases hf
  cases he
  exact loop_filled rfl rfl hs ht

end Fills

/-- The metrics of the exact accounts. -/
def Exact.value (e : Exact) (signals : ℕ) : Gate → ℚ
  | .minimumSignals => signals
  | .minimumFills => e.base.fills
  | .minimumBaseNet => e.base.net.toRat
  | .minimumStressNet => e.stress.net.toRat
  | .minimumPassingFolds => e.foldNets.countP fun net => 0 ≤ net

def Exact.Fails (e : Exact) (signals : ℕ) (gate : Gate × Decimal) : Prop :=
  e.value signals gate.1 < gate.2.toRat

instance (e : Exact) (signals : ℕ) : DecidablePred (e.Fails signals) := fun gate => by
  unfold Exact.Fails
  infer_instance

def Exact.failures (e : Exact) (signals : ℕ) (gates : List (Gate × Decimal)) : List Gate :=
  (gates.filter fun gate => e.Fails signals gate).map Prod.fst

/-- Floating-point nets within the guard band of the exact ones. -/
structure Close (m : Metrics) (e : Exact) (margin : ℚ) : Prop where
  base : ∃ a, m.baseNet.toRat? = some a ∧ |a - e.base.net.toRat| ≤ margin
  stress : ∃ a, m.stressNet.toRat? = some a ∧ |a - e.stress.net.toRat| ≤ margin
  folds : List.Forall₂ (fun x net => ∃ a, x.toRat? = some a ∧ |a - Decimal.toRat net| ≤ margin)
    m.foldNets e.foldNets

/-- A gate fails without a recomputation when its exact metric is below the number its minimum
is rounded to; only the folds are counted by their rounded results. -/
def FailsScreened (m : Metrics) (e : Exact) (gate : Gate × Decimal) : Prop :=
  Binary64.Below (if gate.1 = .minimumPassingFolds then (m.passingFolds : ℚ)
    else e.value m.signals gate.1) (.ofExact gate.2)

instance (m : Metrics) (e : Exact) : DecidablePred (FailsScreened m e) := fun gate => by
  unfold FailsScreened
  infer_instance

section Zones
variable {m : Metrics} {e : Exact} {margin : Decimal} {gate : Gate × Decimal} {zone : Gate × Zone}

theorem isNan_ofExact (d : Decimal) : (Binary64.ofExact d).isNan = false :=
  Binary64.isNan_rounded _ _

theorem zone_of_count {n : ℕ} {d : Binary64} (hg : 0 ≤ margin.toRat)
    (hd : delta (.count n) (.ofExact gate.2) = .ok d) (hzone : zoneOf (.ofExact margin) d ≠ .gray) :
    zoneOf (.ofExact margin) d = .failing ↔ Binary64.Below n (.ofExact gate.2) := by
  unfold delta at hd
  dsimp only at hd
  split_ifs at hd with hover
  cases hd
  unfold zoneOf at hzone ⊢
  split_ifs at hzone ⊢ with hgray hlt
  · exact (hzone rfl).elim
  · exact iff_of_true rfl ((Binary64.lt_zero_iff_below_nat hover hg hgray).mp hlt)
  · exact iff_of_false (by decide) (mt (Binary64.lt_zero_iff_below_nat hover hg hgray).mpr hlt)

theorem zone_of_net {x d : Binary64} {net : ℚ}
    (hclose : ∃ a, x.toRat? = some a ∧ |a - net| ≤ margin.toRat)
    (hd : delta (.net x) (.ofExact gate.2) = .ok d) (hzone : zoneOf (.ofExact margin) d ≠ .gray) :
    zoneOf (.ofExact margin) d = .failing ↔ Binary64.Below net (.ofExact gate.2) := by
  obtain ⟨a, hx, hclose⟩ := hclose
  cases hd
  unfold zoneOf at hzone ⊢
  have hiff := @Binary64.lt_zero_iff_below x (.ofExact gate.2) a margin.toRat margin.negative net
    hx hclose (isNan_ofExact _)
  split_ifs at hzone ⊢ with hgray hlt
  · exact (hzone rfl).elim
  · exact iff_of_true rfl ((hiff hgray).mp hlt)
  · exact iff_of_false (by decide) (mt (hiff hgray).mpr hlt)

theorem zone_failing_iff (hfills : m.fills = e.base.fills) (hclose : Close m e margin.toRat)
    (hzone : m.zone (.ofExact margin) gate = .ok zone) (hgray : zone.2 ≠ .gray) :
    zone.1 = gate.1 ∧ (zone.2 = .failing ↔ FailsScreened m e gate) := by
  unfold Metrics.zone at hzone
  obtain ⟨d, hd, hzone⟩ := bind_eq_ok.mp hzone
  cases hzone
  have hg : 0 ≤ margin.toRat := by
    obtain ⟨a, -, ha⟩ := hclose.base
    exact (abs_nonneg _).trans ha
  refine ⟨rfl, ?_⟩
  obtain ⟨key, minimum⟩ := gate
  unfold FailsScreened
  cases key with
  | minimumSignals => exact zone_of_count hg hd hgray
  | minimumFills =>
    have hcount := zone_of_count hg hd hgray
    rw [hfills] at hcount
    exact hcount
  | minimumBaseNet => exact zone_of_net hclose.base hd hgray
  | minimumStressNet => exact zone_of_net hclose.stress hd hgray
  | minimumPassingFolds => exact zone_of_count hg hd hgray

theorem filter_failing {gates : List (Gate × Decimal)} {zones : List (Gate × Zone)}
    (hfills : m.fills = e.base.fills) (hclose : Close m e margin.toRat)
    (hzones : gates.mapM (m.zone (.ofExact margin)) = .ok zones)
    (hgray : ∀ z ∈ zones, z.2 ≠ .gray) :
    (zones.filter fun z => z.2 = .failing).map Prod.fst =
      (gates.filter fun gate => FailsScreened m e gate).map Prod.fst := by
  have hforall := mapM_eq_ok.mp hzones
  clear hzones
  induction hforall with
  | nil => rfl
  | @cons gate zone gates zones hzone _ ih =>
    rw [forall_mem_cons] at hgray
    obtain ⟨hkey, hiff⟩ := zone_failing_iff hfills hclose hzone hgray.1
    have hrest := ih hgray.2
    by_cases hfails : FailsScreened m e gate
    · rw [filter_cons_of_pos (by simpa using hiff.mpr hfails),
        filter_cons_of_pos (by simpa using hfails), map_cons, map_cons, hrest, hkey]
    · rw [filter_cons_of_neg (by simpa using mt hiff.mp hfails),
        filter_cons_of_neg (by simpa using hfails), hrest]

end Zones

section Reasons
variable {gates : List (Gate × Decimal)} {P Q : Gate × Decimal → Prop} [DecidablePred P]
  [DecidablePred Q]

theorem text_mem_reasonsOf {g : Gate} {failures : List Gate} :
    g.text ∈ reasonsOf failures ↔ g ∈ failures := by
  unfold reasonsOf
  rw [mem_insertionSort, mem_map]
  constructor
  · rintro ⟨h, hh, heq⟩
    rwa [← Gate.text_injective heq]
  · exact fun h => ⟨g, h, rfl⟩

theorem gateOf_eq_ok {item : String × Decimal} {gate : Gate × Decimal}
    (h : gateOf item = .ok gate) : gate.1.text = item.1 := by
  unfold gateOf at h
  split at h
  · rename_i found hfound
    cases h
    simpa using find?_some hfound
  · cases h

theorem map_text_eq {items : List (String × Decimal)} (h : items.mapM gateOf = .ok gates) :
    (gates.map Prod.fst).map Gate.text = items.map Prod.fst := by
  have hforall := mapM_eq_ok.mp h
  clear h
  induction hforall with
  | nil => rfl
  | cons hgate _ ih => rw [map_cons, map_cons, map_cons, ih, gateOf_eq_ok hgate]

theorem gates_nodup {thresholds : Thresholds} (h : thresholds.items.mapM gateOf = .ok gates) :
    (gates.map Prod.fst).Nodup := by
  have hnodup := thresholds.nodup
  rw [← map_text_eq h] at hnodup
  exact hnodup.of_map _

/-- Two selections give the same verdict when they fail the same gates. -/
theorem verdict_eq_iff (hnodup : (gates.map Prod.fst).Nodup) :
    (stateOf ((gates.filter fun g => P g).map Prod.fst) =
        stateOf ((gates.filter fun g => Q g).map Prod.fst) ∧
      reasonsOf ((gates.filter fun g => P g).map Prod.fst) =
        reasonsOf ((gates.filter fun g => Q g).map Prod.fst)) ↔
      ∀ gate ∈ gates, (P gate ↔ Q gate) := by
  constructor
  · rintro ⟨-, hreasons⟩ gate hgate
    have hselected : ∀ (R : Gate × Decimal → Prop) [DecidablePred R],
        gate.1.text ∈ reasonsOf ((gates.filter fun g => R g).map Prod.fst) ↔ R gate := by
      intro R _
      rw [text_mem_reasonsOf, mem_map]
      constructor
      · rintro ⟨other, hother, heq⟩
        rw [mem_filter, decide_eq_true_eq] at hother
        rw [← inj_on_of_nodup_map hnodup hother.1 hgate heq]
        exact hother.2
      · intro hR
        exact ⟨gate, mem_filter.mpr ⟨hgate, decide_eq_true hR⟩, rfl⟩
    rw [← hselected P, ← hselected Q, hreasons]
  · intro h
    have hfilter : (gates.filter fun g => P g) = gates.filter fun g => Q g := by
      apply filter_congr
      intro gate hgate
      rw [decide_eq_decide]
      exact h gate hgate
    rw [hfilter]
    exact ⟨rfl, rfl⟩

end Reasons

/-- What fails a gate, in terms of the exact metrics. -/
def EngineFails (m : Metrics) (e : Exact) (recomputed : Bool) (gate : Gate × Decimal) : Prop :=
  let minimum := Binary64.ofExact gate.2
  let netFails := fun net : Decimal =>
    if recomputed then (Binary64.ofExact net).lt minimum = true
    else Binary64.Below net.toRat minimum
  match gate.1 with
  | .minimumSignals => Binary64.Below m.signals minimum
  | .minimumFills => Binary64.Below e.base.fills minimum
  | .minimumBaseNet => netFails e.base.net
  | .minimumStressNet => netFails e.stress.net
  | .minimumPassingFolds => Binary64.Below (if recomputed then (e.metrics m.signals).passingFolds
      else m.passingFolds : ℕ) minimum

instance (m : Metrics) (e : Exact) (recomputed : Bool) :
    DecidablePred (EngineFails m e recomputed) := fun gate => by
  unfold EngineFails
  dsimp only
  split <;> infer_instance

/-- The metrics of the floating-point accounts. -/
def Request.floatMetrics (x : Request) : Except ScreenError Metrics := do
  let base ← floatAccount x.series x.policy false
  let stress ← floatAccount x.series x.policy true
  let temporal ← x.folds.mapM fun fold => floatAccount (x.series.slice fold) x.policy false
  return {
    signals := x.series.signals.dropLast.countP id
    fills := base.fills
    baseNet := base.net
    stressNet := stress.net
    foldNets := temporal.map fun f => f.net }

/-- Whether a metric is inside of the band, or no gate fails. -/
def Metrics.inconclusive (m : Metrics) (gates : List (Gate × Decimal)) (margin : Decimal) : Bool :=
  match gates.mapM (m.zone (.ofExact margin)) with
  | .ok zones => decide ((∃ z ∈ zones, z.2 = .gray) ∨
      (zones.filter fun z => z.2 = .failing).map Prod.fst = [])
  | .error _ => false

section Law
variable {m : Metrics} {e : Exact} {gate : Gate × Decimal} {x : Request} {r : ScreenResult}
  {gates : List (Gate × Decimal)} {margin : Decimal}

theorem engineFails_recomputed : EngineFails m e true gate ↔
    below ((e.metrics m.signals).metric gate.1) (.ofExact gate.2) = true := by
  obtain ⟨key, minimum⟩ := gate
  unfold EngineFails below
  cases key with
  | minimumSignals => exact (decide_eq_true_iff).symm
  | minimumFills => exact (decide_eq_true_iff).symm
  | minimumBaseNet => exact Iff.rfl
  | minimumStressNet => exact Iff.rfl
  | minimumPassingFolds => exact (decide_eq_true_iff).symm

theorem engineFails_screened : EngineFails m e false gate ↔ FailsScreened m e gate := by
  obtain ⟨key, minimum⟩ := gate
  unfold EngineFails FailsScreened
  cases key <;> exact Iff.rfl

/-- How a screening came to its failures. -/
inductive Judged (x : Request) (m : Metrics) (gates : List (Gate × Decimal)) (margin : Decimal) :
    List Gate → Prop
  | recomputed {e : Exact} (hstate : m.inconclusive gates margin = true) (he : exact x = .ok e) :
      Judged x m gates margin (failing (e.metrics m.signals) gates)
  | screened {zones : List (Gate × Zone)} (hstate : m.inconclusive gates margin = false)
      (hzones : gates.mapM (m.zone (.ofExact margin)) = .ok zones)
      (hgray : ∀ z ∈ zones, z.2 ≠ .gray) :
      Judged x m gates margin ((zones.filter fun z => z.2 = .failing).map Prod.fst)

theorem judge_eq_ok {failures : List Gate} {state discrepancy : String}
    (h : judge x m gates margin = .ok (failures, state, discrepancy)) :
    Judged x m gates margin failures := by
  unfold judge at h
  obtain ⟨zones, hzones, h⟩ := bind_eq_ok.mp h
  have hstate : m.inconclusive gates margin = decide ((∃ z ∈ zones, z.2 = .gray) ∨
      (zones.filter fun z => z.2 = .failing).map Prod.fst = []) := by
    unfold Metrics.inconclusive
    rw [hzones]
  dsimp only at h
  split_ifs at h with hgray
  · obtain ⟨e, he, h⟩ := bind_eq_ok.mp h
    obtain ⟨d, -, h⟩ := bind_eq_ok.mp h
    cases h
    exact .recomputed (hstate.trans (decide_eq_true hgray)) he
  · cases h
    refine .screened (hstate.trans (decide_eq_false hgray)) hzones ?_
    intro z hz hzone
    exact hgray (.inl ⟨z, hz, hzone⟩)

/-- What a screening that returned reports. -/
structure Screened (x : Request) (r : ScreenResult) (m : Metrics) (gates : List (Gate × Decimal))
    (margin : Decimal) : Prop where
  base : ∃ f, floatAccount x.series x.policy false = .ok f ∧ m.fills = f.fills
  judged : ∃ failures, Judged x m gates margin failures ∧
    r.resultState = stateOf failures ∧ r.failureReasons = reasonsOf failures

theorem screen_eq_ok (h : screen x = .ok r) (hm : x.floatMetrics = .ok m)
    (hgates : x.thresholds.items.mapM gateOf = .ok gates)
    (hmargin : number x.guardBand = .ok margin) : Screened x r m gates margin := by
  unfold screen at h
  obtain ⟨-, h⟩ := raiseIf_bind_eq_ok.mp h
  obtain ⟨datasetId, -, h⟩ := bind_eq_ok.mp h
  dsimp only at h
  obtain ⟨-, h⟩ := raiseIf_bind_eq_ok.mp h
  rw [hgates, ok_bind] at h
  obtain ⟨base, hbase, h⟩ := bind_eq_ok.mp h
  obtain ⟨stress, hstress, h⟩ := bind_eq_ok.mp h
  obtain ⟨temporal, htemporal, h⟩ := bind_eq_ok.mp h
  unfold Request.floatMetrics at hm
  rw [hbase, ok_bind, hstress, ok_bind, htemporal] at hm
  cases hm
  rw [hmargin, ok_bind] at h
  obtain ⟨⟨failures, state, discrepancy⟩, hjudge, h⟩ := bind_eq_ok.mp h
  cases h
  exact ⟨⟨base, hbase, rfl⟩, failures, judge_eq_ok hjudge, rfl, rfl⟩

theorem engineFails_of_number (hnumber : (Binary64.ofExact gate.2).toRat? = some gate.2.toRat)
    (hkey : gate.1 ≠ .minimumPassingFolds) :
    EngineFails m e false gate ↔ e.Fails m.signals gate := by
  rw [engineFails_screened, FailsScreened, if_neg hkey, Binary64.Below_of_toRat? hnumber]
  rfl

theorem Judged.failures_eq {failures : List Gate} (h : Judged x m gates margin failures)
    (he : exact x = .ok e) (hfills : m.fills = e.base.fills) (hclose : Close m e margin.toRat) :
    failures = (gates.filter fun gate =>
      EngineFails m e (m.inconclusive gates margin) gate).map Prod.fst := by
  cases h with
  | @recomputed e' hstate he' =>
    cases he.symm.trans he'
    rw [hstate]
    unfold failing
    congr 1
    apply filter_congr
    intro gate _
    rw [Bool.eq_iff_iff, decide_eq_true_eq]
    exact engineFails_recomputed.symm
  | @screened zones hstate hzones hgray =>
    rw [hstate, filter_failing hfills hclose hzones hgray]
    congr 1
    apply filter_congr
    intro gate _
    rw [decide_eq_decide]
    exact engineFails_screened.symm

end Law

/-- Two trades, of which the second one loses what the first one gained. -/
def evenSeries : Series where
  signals := [true, false, true, false, false]
  opens := ["1", "0.1", "0.3", "0.3", "0.1"]
  closes := ["1", "1", "1", "1", "1"]

def evenRequest (thresholds : Thresholds) : Request where
  series := evenSeries
  policy := ⟨"COST/v1", "1", "1", "0", "0", "0", "0"⟩
  costPolicyRef := "COST/v1"
  thresholds := thresholds
  folds := [(0, 5)]
  guardBand := "0.000001"
  evidence := none
  expectedQualitySha256 := none
  expectedDatasetId := none
  fixtureId := some "SYNTHETIC-001"

def evenNet : Binary64 := .finite true (1 / 2 ^ 53)

theorem evenNet_close {net : Decimal} (h : net.toRat = 0) :
    ∃ a, evenNet.toRat? = some a ∧ |a - net.toRat| ≤ (⟨false, 1, -6⟩ : Decimal).toRat := by
  refine ⟨-(1 / 2 ^ 53), rfl, ?_⟩
  rw [h]
  norm_num [toRat, Decimal.int]

theorem even_close {m : Metrics} {e : Exact} (hbase : m.baseNet = evenNet)
    (hstress : m.stressNet = evenNet) (hfolds : m.foldNets = [evenNet])
    (hbase' : e.base.net.toRat = 0) (hstress' : e.stress.net.toRat = 0)
    (hfolds' : e.foldNets.map toRat = [0]) :
    Close m e (⟨false, 1, -6⟩ : Decimal).toRat := by
  refine ⟨?_, ?_, ?_⟩
  · rw [hbase]
    exact evenNet_close hbase'
  · rw [hstress]
    exact evenNet_close hstress'
  · rw [hfolds]
    obtain ⟨net, rest, hnets, hnet, hrest⟩ := map_eq_cons_iff.mp hfolds'
    rw [hnets, map_eq_nil_iff.mp hrest]
    exact .cons (evenNet_close hnet) .nil

/-- The evaluation of both engines on a request over the series. -/
def EvenVerdicts (x : Request) (gates : List (Gate × Decimal)) (screened expected : List String) :
    Prop :=
  ∃ r m e, screen x = .ok r ∧ x.floatMetrics = .ok m ∧ exact x = .ok e ∧
    Close m e (⟨false, 1, -6⟩ : Decimal).toRat ∧ r.failureReasons = screened ∧
    reasonsOf (e.failures m.signals gates) = expected ∧
    r.resultState = stateOf (e.failures m.signals gates)

def evenCheck (x : Request) (gates : List (Gate × Decimal)) (screened expected : List String) :
    Bool :=
  match screen x, x.floatMetrics, exact x with
  | .ok r, .ok m, .ok e => decide (m.baseNet = evenNet ∧ m.stressNet = evenNet ∧
      m.foldNets = [evenNet] ∧ e.base.net.toRat = 0 ∧ e.stress.net.toRat = 0 ∧
      e.foldNets.map toRat = [0] ∧ r.failureReasons = screened ∧
      reasonsOf (e.failures m.signals gates) = expected ∧
      r.resultState = stateOf (e.failures m.signals gates))
  | _, _, _ => false

theorem evenVerdicts_of_check {x : Request} {gates : List (Gate × Decimal)}
    {screened expected : List String} (h : evenCheck x gates screened expected = true) :
    EvenVerdicts x gates screened expected := by
  unfold evenCheck at h
  split at h
  · rename_i r m e hr hm he
    obtain ⟨hbase, hstress, hfolds, hbase', hstress', hfolds', hscreened, hexpected, hstate⟩ :=
      of_decide_eq_true h
    exact ⟨r, m, e, hr, hm, he, even_close hbase hstress hfolds hbase' hstress' hfolds', hscreened,
      hexpected, hstate⟩
  · cases h

def netThreshold : Thresholds := ⟨[("minimum_base_net", 1)], by decide⟩

def foldThresholds : Thresholds :=
  ⟨[("minimum_base_net", 1), ("minimum_passing_folds", 1)], by decide⟩

end Factory.Screening

end TradingLab
