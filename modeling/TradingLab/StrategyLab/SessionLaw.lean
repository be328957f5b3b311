import TradingLab.StrategyLab.RecoveryLaw
import TradingLab.Validation.RiskTrackerRun

/-!
# The sessions of the recovery tracker

Every change of the realized result is to count in the session of one of the two
observations it lies between. The tracker adds up the changes within a UTC day. The
change that shows at the first observation of a day is in no total at all, so its
totals are complete exactly where that change leaves the day before as it was.
-/

namespace TradingLab

open Decimal Accounting RiskHistory

namespace RiskOverlay

open _RiskTracker (lossReached Timely)
open PaperRunner (firstDecisionTimeMs sampleBefore sampleAfter)
open _RecoveryCooldownRiskTracker

/-- The changes that are put in the session of a day; the place of a change is that of the
observation before it. -/
def attributed (place : ℕ → ℤ) (day : ℤ) (os : List Observation) : List Decimal :=
  ((steps os).zipIdx.filter fun p => place p.2 = day).map fun p => change p.1

/-- They are added up the way the tracker adds. -/
def attributedTotal (place : ℕ → ℤ) (day : ℤ) (os : List Observation) : Decimal :=
  sum defaultPrecision (attributed place day os)

section Attributed
variable {place : ℕ → ℤ} {day : ℤ} {os : List Observation} {last o : Observation}

theorem length_steps_concat (os : List Observation) (last : Observation) :
    (steps (os ++ [last])).length = os.length := by
  induction os using List.reverseRecOn generalizing last with
  | nil => rfl
  | append_singleton os o ih =>
    rw [List.append_assoc, List.singleton_append, steps_concat, List.length_append, ih]
    simp

theorem attributedTotal_concat : attributedTotal place day (os ++ [last, o]) =
    if place os.length = day
      then add defaultPrecision (attributedTotal place day (os ++ [last])) (change (last, o))
      else attributedTotal place day (os ++ [last]) := by
  unfold attributedTotal attributed
  rw [steps_concat, List.zipIdx_append, List.filter_append, List.map_append, zero_add,
    length_steps_concat]
  split_ifs with hplace
  · rw [← sum_append_singleton]
    simp [hplace]
  · simp [hplace]

theorem attributedTotal_of_none (h : ∀ pre a b post, os = pre ++ a :: b :: post →
    place pre.length ≠ day) : attributedTotal place day os = 0 := by
  induction os using List.reverseRecOn with
  | nil => rfl
  | append_singleton os o ih =>
    rcases List.eq_nil_or_concat os with rfl | ⟨os, last, rfl⟩
    · rfl
    · rw [List.concat_eq_append] at ih h ⊢
      have hbefore := ih fun pre a b post hsplit => h pre a b (post ++ [o]) (by simp [hsplit])
      rw [List.append_assoc, List.singleton_append, attributedTotal_concat, if_neg, hbefore]
      exact h os last o [] (by simp)

theorem attributedTotal_eq_total (h : ∀ pre a b post, os = pre ++ a :: b :: post →
    place pre.length = a.day) : attributedTotal place day os = total day os := by
  induction os using List.reverseRecOn with
  | nil => rfl
  | append_singleton os o ih =>
    rcases List.eq_nil_or_concat os with rfl | ⟨os, last, rfl⟩
    · rfl
    · rw [List.concat_eq_append] at ih h ⊢
      have hbefore := ih fun pre a b post hsplit => h pre a b (post ++ [o]) (by simp [hsplit])
      have hplace := h os last o [] (by simp)
      rw [List.append_assoc, List.singleton_append, attributedTotal_concat, total_concat, hplace,
        hbefore]

theorem total_append_of_ne (h : ∀ z ∈ last :: os, z.day ≠ day) (pre : List Observation) :
    total day (pre ++ last :: os) = total day (pre ++ [last]) := by
  induction os using List.reverseRecOn with
  | nil => rfl
  | append_singleton os o ih =>
    have hbefore := ih fun z hz => h z (by
      rw [← List.cons_append]
      exact List.mem_append_left _ hz)
    rcases List.eq_nil_or_concat os with rfl | ⟨os, previous, rfl⟩
    · change total day (pre ++ [last, o]) = _
      rw [total_concat, if_neg (h last (by simp))]
    · have hsplit : pre ++ last :: (os ++ [previous] ++ [o]) =
          (pre ++ last :: os) ++ [previous, o] := by simp
      have hinitial : (pre ++ last :: os) ++ [previous] = pre ++ last :: (os ++ [previous]) := by
        simp
      rw [List.concat_eq_append] at hbefore h ⊢
      rw [hsplit, total_concat, if_neg (h previous (by simp)), hinitial, hbefore]

end Attributed

/-- Each change counts in the session of one of its two observations, and in no other: at every
observation the result of each session is the sum of the changes put in it so far, and a session
that lost as much as its limit allows blocks every entry. -/
structure Attributes (place : ℕ → ℤ) (seen : List Seen) : Prop where
  own : ∀ pre a b post, seen.map (fun z => z.observation) = pre ++ a :: b :: post →
    place pre.length = a.day ∨ place pre.length = b.day
  totals : ∀ pre x mid post, seen = pre ++ x :: (mid ++ post) →
    (∀ z ∈ mid, z.observation.day ≠ x.observation.day) → x.after.sessionRealizedPnl ≈
      attributedTotal place x.observation.day ((pre ++ x :: mid).map fun z => z.observation)
  blocks : ∀ pre x mid post, seen = pre ++ x :: (mid ++ post) →
    (∀ z ∈ mid, z.observation.day ≠ x.observation.day) →
    ∀ first ∈ ((pre ++ [x]).map fun z => z.observation).find? (fun o => o.day = x.observation.day),
      lossReached first.equity (attributedTotal place x.observation.day
        ((pre ++ x :: mid).map fun z => z.observation)) = true →
      x.after.sessionBlockActive = true ∧ x.EntriesBlocked

/-- No change is dropped and none counts twice. -/
def SessionsCount (seen : List Seen) : Prop := ∃ place, Attributes place seen

/-- What is realized between the last observation of a day and the first of the next leaves the
total of the earlier day as it is. -/
def Settled (os : List Observation) : Prop :=
  ∀ pre last o post, os = pre ++ last :: o :: post → o.day ≠ last.day →
    total last.day (pre ++ [last, o]) ≈ total last.day (pre ++ [last])

theorem add_of_zero {a d : Decimal} (ha : Representable defaultPrecision a.toRat)
    (hd : d ≈ 0) : add defaultPrecision a d ≈ a := by
  have hp : 0 < defaultPrecision := by decide
  rw [equiv_def, toRat_zero] at hd
  rw [equiv_def, toRat_add hp (by rwa [hd, add_zero]), hd, add_zero]

theorem representable_sum (ds : List Decimal) :
    Representable defaultPrecision (sum defaultPrecision ds).toRat := by
  induction ds using List.reverseRecOn with
  | nil => exact ⟨0, 0, by simp, by simp [sum]⟩
  | append_singleton ds d =>
    rw [sum_append_singleton]
    exact representable_round (by decide) _

theorem settled_of_unchanged {os : List Observation} (h : ∀ pre last o post,
    os = pre ++ last :: o :: post → o.day ≠ last.day → o.realized ≈ last.realized) :
    Settled os := by
  have hp : 0 < defaultPrecision := by decide
  intro pre last o post hsplit hday
  have hsame := equiv_def.mp (h pre last o post hsplit hday)
  have hchange : change (last, o) ≈ 0 := by
    have hzero : Representable defaultPrecision (o.realized.toRat - last.realized.toRat) :=
      ⟨0, 0, by simp, by simp [hsame]⟩
    rw [equiv_def, toRat_zero, change, toRat_sub hp hzero, hsame, sub_self]
  rw [total_concat, if_pos rfl]
  exact add_of_zero (representable_sum _) hchange

theorem lossReached_congr {startEquity total total' : Decimal} (h : total ≈ total') :
    lossReached startEquity total = lossReached startEquity total' := by
  have hp : 0 < defaultPrecision := by decide
  have hneg : (neg defaultPrecision total).toRat = (neg defaultPrecision total').toRat := by
    apply toRat_round_congr hp
    have hzero := toRat_eq_zero_iff total
    rw [equiv_def.mp h, toRat_eq_zero_iff] at hzero
    split_ifs with h0 h1 h1
    · rw [toRat_copyAbs, toRat_copyAbs, equiv_def.mp h]
    · exact absurd (hzero.mpr h0) h1
    · exact absurd (hzero.mp h1) h0
    · rw [toRat_copyNegate, toRat_copyNegate, equiv_def.mp h]
  have hlarger : (larger (neg defaultPrecision total) 0).toRat =
      (larger (neg defaultPrecision total') 0).toRat := by
    simp only [larger, lt_def, hneg]
    split_ifs
    · rfl
    · exact hneg
  unfold lossReached
  rw [decide_eq_decide, le_def, le_def, hlarger]

section Keeps
variable {t : _RecoveryCooldownRiskTracker} {x : Seen} {pre : List Observation}
  {last : Observation}

theorem roll_countLosses (t : _RecoveryCooldownRiskTracker) (o : Observation) (d : Decimal) :
    ((t._countLosses o)._roll o d).session = (t._roll o d).session ∧
      ((t._countLosses o)._roll o d).sessionRealizedPnl = (t._roll o d).sessionRealizedPnl := by
  have hsession : (t._countLosses o).session = t.session := rfl
  cases h : t.session with
  | none =>
    rw [h] at hsession
    rw [roll_first h, roll_first hsession]
    exact ⟨rfl, rfl⟩
  | some session =>
    rw [h] at hsession
    by_cases hday : o.day = session.startTimeMs
    · rw [roll_same h hday, roll_same hsession hday]
      exact ⟨hsession.trans h.symm, rfl⟩
    · rw [roll_next h hday, roll_next hsession hday]
      exact ⟨rfl, rfl⟩

/-- The session of an observation is the one it rolled to, and a loss at its limit blocks it. -/
theorem Seen.Observed.rolled (h : x.Observed) :
    x.after.session = (x.before._roll x.observation (x.before.delta x.observation)).session ∧
    x.after.sessionRealizedPnl =
      (x.before._roll x.observation (x.before.delta x.observation)).sessionRealizedPnl ∧
    (x.after.sessionLossReached = true →
      x.after.sessionBlockActive = true ∧ x.state.killSwitchActive = true) := by
  obtain ⟨-, -, hactive, counted, hcounted, hafter⟩ := observe_eq_ok h
  obtain ⟨hsession, htotal⟩ :=
    roll_countLosses x.before x.observation (x.before.delta x.observation)
  have hkept : x.after.session = (x.before._updated x.observation).session ∧
      x.after.sessionRealizedPnl = (x.before._updated x.observation).sessionRealizedPnl ∧
      x.after.sessionBlockActive = (x.before._updated x.observation).sessionBlockActive := by
    rw [hafter]
    unfold _counted at hcounted
    split at hcounted
    · obtain ⟨-, rfl⟩ := countDown_eq_ok.mp hcounted
      exact ⟨rfl, rfl, rfl⟩
    · cases hcounted
      exact ⟨rfl, rfl, rfl⟩
  obtain ⟨hkeptSession, hkeptTotal, hkeptBlock⟩ := hkept
  refine ⟨hkeptSession.trans hsession, hkeptTotal.trans htotal, ?_⟩
  intro hreached
  have hblock : (x.before._updated x.observation).sessionBlockActive = true := by
    unfold sessionLossReached at hreached
    rw [hkeptSession, hkeptTotal] at hreached
    change (_ || (_ && _)) = true
    cases hbefore : (((x.before._countLosses x.observation)._roll x.observation
        (x.before.delta x.observation))).sessionBlockActive with
    | true => rfl
    | false =>
      rw [Bool.false_or, Bool.not_false, Bool.and_true]
      exact hreached
  rw [hkeptBlock, hactive]
  simp [hblock]

/-- What the tracker remembers of its last observation. -/
structure Follows (pre : List Observation) (last : Observation)
    (t : _RecoveryCooldownRiskTracker) : Prop where
  session : ∃ first ∈ (pre ++ [last]).find? (fun o => o.day = last.day),
    t.session = some ⟨last.day, first.equity⟩
  total : t.sessionRealizedPnl = total last.day (pre ++ [last])
  realized : t.previousRealizedPnl = last.realized

theorem Seen.Observed.follows_first (h : x.Observed) (hfresh : x.before.session = none) :
    Follows [] x.observation x.after := by
  obtain ⟨-, -, -, -, -, -, -, -, hrealized, -⟩ := h.updated
  obtain ⟨hsession, htotal, -⟩ := h.rolled
  rw [roll_first hfresh] at hsession htotal
  exact ⟨⟨x.observation, by simp, hsession⟩, htotal, hrealized⟩

theorem Seen.Observed.follows_next (h : x.Observed) (hbefore : Follows pre last x.before)
    (hdays : ∀ o ∈ pre ++ [last], o.day ≤ last.day) (hle : last.day ≤ x.observation.day) :
    Follows (pre ++ [last]) x.observation x.after := by
  obtain ⟨⟨first, hfirst, hsession⟩, htotal, hprevious⟩ := hbefore
  obtain ⟨-, -, -, -, -, -, -, -, hrealized, -⟩ := h.updated
  obtain ⟨hsession', htotal', -⟩ := h.rolled
  have hnext : pre ++ [last] ++ [x.observation] = pre ++ [last, x.observation] := by simp
  by_cases hday : x.observation.day = last.day
  · rw [roll_same hsession hday] at hsession' htotal'
    refine ⟨?_, ?_, hrealized⟩
    · rw [hnext, hday]
      exact ⟨first, find?_next_of_mem hfirst, hsession'.trans hsession⟩
    · rw [hnext, total_concat, hday, if_pos rfl, ← htotal, htotal', change, delta, hprevious]
  · rw [roll_next hsession hday] at hsession' htotal'
    have hnew : ∀ o ∈ pre ++ [last], o.day ≠ x.observation.day := fun o ho =>
      ((hdays o ho).trans_lt (lt_of_le_of_ne hle (Ne.symm hday))).ne
    refine ⟨?_, ?_, hrealized⟩
    · rw [hnext]
      exact ⟨x.observation, find?_next_of_new hnew, hsession'⟩
    · rw [hnext, total_concat, if_neg (Ne.symm hday), total_of_new hnew]
      exact htotal'

/-- In the order of time the days never go back. -/
theorem day_le_of_ordered {os post : List Observation} (h : Ordered (os ++ last :: post)) :
    (∀ o ∈ os, o.day ≤ last.day) ∧ ∀ o ∈ post, last.day ≤ o.day := by
  unfold Ordered at h
  obtain ⟨-, htail, hcross⟩ := List.pairwise_append.mp h
  exact ⟨fun o ho => day_le (hcross o ho last List.mem_cons_self),
    fun o ho => day_le (List.rel_of_pairwise_cons htail ho)⟩

theorem Runs.follows {xs : List Seen} (h : Runs t (xs ++ [x])) (hfresh : t.session = none)
    (hordered : Ordered ((xs ++ [x]).map fun y => y.observation)) :
    Follows (xs.map fun y => y.observation) x.observation x.after := by
  induction xs using List.reverseRecOn generalizing x with
  | nil =>
    obtain ⟨rfl, hx, -⟩ := h
    exact hx.follows_first hfresh
  | append_singleton xs y ih =>
    obtain ⟨hxs, hbefore, hx, -⟩ := runs_append.mp h
    rw [endOf_append] at hbefore
    rw [List.map_append] at hordered
    obtain ⟨hbeforeLast, -⟩ := day_le_of_ordered hordered
    have hinitial := ih hxs (List.pairwise_append.mp hordered).1
    have hdays : ∀ o ∈ xs.map (fun z => z.observation) ++ [y.observation],
        o.day ≤ y.observation.day := by
      rw [List.map_append, List.map_singleton, List.append_assoc] at hordered
      obtain ⟨hinitialDays, -⟩ := day_le_of_ordered hordered
      intro o ho
      rcases List.mem_append.mp ho with ho | ho
      · exact hinitialDays o ho
      · rw [List.mem_singleton.mp ho]
    rw [List.map_append, List.map_singleton] at hbeforeLast ⊢
    apply hx.follows_next _ hdays (hbeforeLast _ (by simp))
    rw [hbefore]
    exact hinitial

end Keeps

section Run
variable {t : _RecoveryCooldownRiskTracker} {seen : List Seen} {x y : Seen}

theorem Runs.total (h : Runs t seen) (hfresh : t.session = none)
    (hordered : Ordered (seen.map fun z => z.observation)) {pre post : List Seen}
    (hsplit : seen = pre ++ x :: post) : x.Observed ∧
    Follows (pre.map fun z => z.observation) x.observation x.after := by
  subst hsplit
  rw [List.append_cons] at h hordered
  obtain ⟨hinitial, -⟩ := runs_append.mp h
  rw [List.map_append] at hordered
  obtain ⟨-, -, hx, -⟩ := runs_append.mp hinitial
  exact ⟨hx, hinitial.follows hfresh (List.pairwise_append.mp hordered).1⟩

theorem Settled.total_eq {pre mid post : List Seen}
    (h : Settled ((pre ++ x :: (mid ++ post)).map fun z => z.observation))
    (hmid : ∀ z ∈ mid, z.observation.day ≠ x.observation.day) :
    RiskHistory.total x.observation.day ((pre ++ x :: mid).map fun z => z.observation) ≈
      RiskHistory.total x.observation.day ((pre ++ [x]).map fun z => z.observation) := by
  cases mid with
  | nil => rfl
  | cons y mid =>
    have hsettled := h (pre.map fun z => z.observation) x.observation y.observation
      ((mid ++ post).map fun z => z.observation) (by simp) (hmid y List.mem_cons_self)
    have hrest : ∀ o ∈ y.observation :: mid.map (fun z => z.observation),
        o.day ≠ x.observation.day := by
      simpa using hmid
    have htail := total_append_of_ne hrest (pre.map (fun z => z.observation) ++ [x.observation])
    simp only [List.append_assoc, List.singleton_append] at htail
    simp only [List.map_append, List.map_cons, List.map_nil]
    rw [htail]
    exact hsettled

/-- The place of each change is the day of the observation before it. -/
def earlier (os : List Observation) (n : ℕ) : ℤ := (os[n]?.map Observation.day).getD 0

theorem earlier_length {os pre post : List Observation} {o : Observation}
    (h : os = pre ++ o :: post) : earlier os pre.length = o.day := by
  simp [earlier, h]

theorem Runs.attributes (h : Runs t seen) (hfresh : t.session = none)
    (hordered : Ordered (seen.map fun z => z.observation))
    (hsettled : Settled (seen.map fun z => z.observation)) :
    Attributes (earlier (seen.map fun z => z.observation)) seen := by
  have htotals : ∀ pre x mid post, seen = pre ++ x :: (mid ++ post) →
      (∀ z ∈ mid, z.observation.day ≠ x.observation.day) → x.after.sessionRealizedPnl ≈
        attributedTotal (earlier (seen.map fun z => z.observation)) x.observation.day
          ((pre ++ x :: mid).map fun z => z.observation) := by
    intro pre x mid post hsplit hmid
    obtain ⟨-, hfollows⟩ := h.total hfresh hordered hsplit
    rw [attributedTotal_eq_total, hfollows.total]
    · rw [hsplit] at hsettled
      have heq := hsettled.total_eq hmid
      simp only [List.map_append, List.map_cons, List.map_nil] at heq ⊢
      exact heq.symm
    · intro initial a b rest hinitial
      have hobserved : seen.map (fun z => z.observation) =
          initial ++ a :: (b :: rest ++ post.map fun z => z.observation) := by
        rw [hsplit, ← List.cons_append, ← List.append_assoc, List.map_append, hinitial]
        simp
      exact earlier_length hobserved
  constructor
  case own =>
    intro pre a b post hsplit
    exact .inl (earlier_length hsplit)
  case totals => exact htotals
  case blocks =>
    intro pre x mid post hsplit hmid first hfirst hreached
    obtain ⟨hx, hfollows⟩ := h.total hfresh hordered hsplit
    obtain ⟨first', hfirst', hsession⟩ := hfollows.session
    obtain ⟨-, -, hblocks⟩ := hx.rolled
    have hsame : first' = first := by
      rw [List.map_append, List.map_singleton] at hfirst
      exact Option.some.inj ((Option.mem_def.mp hfirst').symm.trans (Option.mem_def.mp hfirst))
    rw [← lossReached_congr (htotals pre x mid post hsplit hmid)] at hreached
    have hlimit : x.after.sessionLossReached = true := by
      rw [sessionLossReached, hsession, hsame]
      exact hreached
    obtain ⟨hactive, hstopped⟩ := hblocks hlimit
    exact ⟨hactive, x.entriesBlocked hstopped⟩

/-- A change that counts in one of its two sessions leaves the earlier one as it is. -/
theorem Attributes.settled {place : ℕ → ℤ} (h : Attributes place seen) (hruns : Runs t seen)
    (hfresh : t.session = none) (hordered : Ordered (seen.map fun z => z.observation)) :
    Settled (seen.map fun z => z.observation) := by
  have hp : 0 < defaultPrecision := by decide
  intro initial last o rest hinitial hday
  obtain ⟨pre, tail, hsplit, rfl, htail⟩ := List.map_eq_append_iff.mp hinitial
  obtain ⟨x, tail', rfl, rfl, htail'⟩ := List.map_eq_cons_iff.mp htail
  obtain ⟨y, post, rfl, rfl, -⟩ := List.map_eq_cons_iff.mp htail'
  have hnext : seen = (pre ++ [x]) ++ y :: ([] ++ post) := by simp [hsplit]
  obtain ⟨-, hx⟩ := hruns.total hfresh hordered hsplit
  obtain ⟨-, hy⟩ := hruns.total hfresh hordered hnext
  have hbefore := h.totals pre x [] (y :: post) hsplit (by simp)
  have hafter := h.totals pre x [y] post hsplit (by simpa using hday)
  have hnew := h.totals (pre ++ [x]) y [] post hnext (by simp)
  rw [hx.total] at hbefore hafter
  rw [hy.total] at hnew
  simp only [List.map_append, List.map_cons, List.map_nil, List.append_assoc, List.cons_append,
    List.nil_append] at hbefore hafter hnew
  rw [total_concat, if_pos rfl]
  rcases h.own _ _ _ _ hinitial with hplace | hplace
  · rw [attributedTotal_concat, if_pos hplace] at hafter
    refine Eq.trans ?_ hafter.symm
    apply toRat_round_congr hp
    rw [toRat_addExact, toRat_addExact, equiv_def.mp hbefore]
  · have hdays := hordered
    rw [hinitial] at hdays
    obtain ⟨hdaysBefore, hdaysAfter⟩ := day_le_of_ordered hdays
    have hlt : x.observation.day < y.observation.day :=
      lt_of_le_of_ne (hdaysAfter _ List.mem_cons_self) (Ne.symm hday)
    have hnone : attributedTotal place y.observation.day
        (pre.map (fun z => z.observation) ++ [x.observation]) = 0 := by
      apply attributedTotal_of_none
      intro p a b q hpq
      have hobserved : seen.map (fun z => z.observation) =
          p ++ a :: b :: (q ++ y.observation :: rest) := by
        rw [hinitial, List.append_cons, hpq]
        simp
      have hearly : ∀ c ∈ [a, b], c.day ≤ x.observation.day := by
        intro c hc
        have hmem : c ∈ pre.map (fun z => z.observation) ++ [x.observation] := by
          rw [hpq, List.mem_append]
          simp only [List.mem_cons, List.not_mem_nil, or_false] at hc ⊢
          tauto
        rcases List.mem_append.mp hmem with hc | hc
        · exact hdaysBefore c hc
        · rw [List.mem_singleton.mp hc]
      have ha := hearly a (by simp)
      have hb := hearly b (by simp)
      rcases h.own p a b _ hobserved with hown | hown <;> omega
    have hzero : RiskHistory.total y.observation.day
        (pre.map (fun z => z.observation) ++ [x.observation, y.observation]) = 0 := by
      rw [total_concat, if_neg (Ne.symm hday)]
      apply total_of_new
      intro z hz
      rcases List.mem_append.mp hz with hz | hz
      · exact ((hdaysBefore z hz).trans_lt hlt).ne
      · rw [List.mem_singleton.mp hz]
        exact hlt.ne
    rw [attributedTotal_concat, if_pos hplace, hnone, hzero] at hnew
    apply add_of_zero (representable_sum _)
    have hchange : Representable defaultPrecision (change (x.observation, y.observation)).toRat :=
      representable_round hp _
    rw [equiv_def, toRat_add hp (by simpa using hchange), toRat_zero, zero_add] at hnew
    rw [equiv_def, toRat_zero]
    exact hnew.symm

theorem sessionsCount_iff (h : Runs t seen) (hfresh : t.session = none)
    (hordered : Ordered (seen.map fun z => z.observation)) :
    SessionsCount seen ↔ Settled (seen.map fun z => z.observation) := by
  constructor
  · rintro ⟨place, hplace⟩
    exact hplace.settled h hfresh hordered
  · exact fun hsettled => ⟨_, h.attributes hfresh hordered hsettled⟩

end Run

theorem session_init {symbol : Symbol} {initialEquity : String} {cooldown : ℤ}
    {t : _RecoveryCooldownRiskTracker}
    (h : _RecoveryCooldownRiskTracker.init symbol initialEquity cooldown = .ok t) :
    t.session = none := by
  obtain ⟨-, h⟩ := raiseIf_bind_eq_ok.mp h
  cases h
  rfl

/-- The start of the day after the first decision. -/
def sampleMidnight : ℤ := firstDecisionTimeMs / utcDayMs * utcDayMs + utcDayMs

/-- The last decision of a day and the first of the next. -/
def sampleOvernight (before after : PortfolioSnapshot) : List Observation :=
  [⟨sampleMidnight - 3600000, before, "101"⟩, ⟨sampleMidnight, after, "100"⟩]

theorem timely_sampleOvernight (before after : PortfolioSnapshot) (h : before.closedTrades = 0) :
    Timely (sampleOvernight before after) := by
  constructor
  case ordered => simp [Ordered, sampleOvernight]
  case first =>
    rintro o ⟨⟩
    exact h

theorem exists_sampleOvernight (before after : PortfolioSnapshot)
    (hbefore : before.closedTrades = 0)
    (hafter : after.closedTrades = 0 ∨ after.closedTrades = 1) :
    ∃ t seen, _RecoveryCooldownRiskTracker.init .btcusdt "10000" 24 = .ok t ∧
      observeAll t (sampleOvernight before after) = .ok seen := by
  cases hinit : _RecoveryCooldownRiskTracker.init .btcusdt "10000" 24 with
  | error e => cases hinit
  | ok t =>
    have hclosed : t.previousClosedTrades = 0 := by
      cases hinit
      rfl
    have hcloses : CloseAtMostOne t.previousClosedTrades (sampleOvernight before after) := by
      rw [hclosed]
      refine ⟨.inl ?_, ?_, trivial⟩
      · simp [Observation.closedTrades, hbefore]
      · simpa [Observation.closedTrades, hbefore] using hafter
    obtain ⟨seen, hseen⟩ := exists_observeAll hcloses
    exact ⟨t, seen, rfl, hseen⟩

end RiskOverlay

end TradingLab
